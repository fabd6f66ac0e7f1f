import RealtimeChat.Rooms.History

/-! Whether every member who has joined hears of a message.

A message that is sent is announced under the name that its sender wrote, and a
socket is in a room under the name that it joined by. Both are checked as ids, and
an id has many spellings, so the two may differ; nothing else can keep an
announcement from a socket that is due it, and none is made twice
(`announced_iff`). -/
namespace RealtimeChat
open Data (Text)
open Zod (Value)
open Async Async.System

/-- The task has created the message. -/
def CreatedBy (pid : Nat) (id : ObjectId) (log : Log) : Prop :=
  ∃ spelling senderId text now m,
    .answered pid (.messageCreate id spelling senderId text now) (.ok m) ∈ log

/-- The task has announced a message. -/
def HasAnnounced (pid : Nat) (log : Log) : Prop :=
  ∃ room payload receivers, .acted pid (.emit room (.messageNew payload)) receivers ∈ log

/-- The task sends a message to the conversation so spelled. -/
def SendsTo (pid : Nat) (spelling : Text) (log : Log) : Prop :=
  ∃ socket args id input, .arrived pid (.event socket .messageSend args id) ∈ log ∧
    sendMessageSchema.parse (args.getD 0 .undefined) = .ok input ∧ input.conversationId = spelling

/-- A task announces only what it has created, and once; and it reports a message sent
right after announcing it under the name that it was given. -/
def Announcement : Event chatInterface Failure Call → Log → Prop
  | .acted pid (.emit _ (.messageNew payload)) _, earlier =>
    CreatedBy pid payload.id earlier ∧ ¬ HasAnnounced pid earlier
  | .acted _ (.emitFrom _ _ (.messageNew _)) _, _ => False
  | .acted pid (.ack response) _, earlier => ∀ payload, response.data = some payload →
    ∃ spelling receivers rest,
      earlier = .acted pid (.emit spelling (.messageNew payload)) receivers :: rest ∧
        SendsTo pid spelling earlier
  | _, _ => True

structure Announced (w : World chatInterface Server Failure Call) : Prop where
  stored : ∀ pid id, CreatedBy pid id w.log → ∃ m ∈ w.state.messages.docs, m.id = id
  creator : ∀ pid pid' id, CreatedBy pid id w.log → CreatedBy pid' id w.log → pid = pid'
  each : Each Announcement w.log

def announcing : Discipline chatInterface Server Failure Call where
  inv := Announced
  rel w w' := ∃ new, w'.log = new ++ w.log
  assume _ := True
  refl _ := ⟨[], rfl⟩
  trans := by
    intro a b c h h'
    obtain ⟨new, hnew⟩ := h
    obtain ⟨new', hnew'⟩ := h'
    exact ⟨new' ++ new, by rw [hnew', hnew, List.append_assoc]⟩
  earlier := id

section
variable {D : Deployment} {pid : Nat} {w w' : World chatInterface Server Failure Call}

/-- A step that creates no message. -/
theorem announcing_keeps_quiet {e : Event chatInterface Failure Call} (hi : Announced w)
    (hlog : w'.log = e :: w.log) (hmessages : w'.state.messages = w.state.messages)
    (he : Announcement e w.log) (hold : ∀ pid id, CreatedBy pid id (e :: w.log) →
      CreatedBy pid id w.log) : announcing.Keeps w w' := by
  refine ⟨⟨[e], hlog⟩, ?_, ?_, ?_⟩
  · rw [hlog, hmessages]
    exact fun pid id h => hi.stored pid id (hold pid id h)
  · rw [hlog]
    exact fun pid pid' id h h' => hi.creator pid pid' id (hold pid id h) (hold pid' id h')
  · rw [hlog]
    exact ⟨he, hi.each⟩

theorem announcing_keeps_act {a : Action} (hi : Announced w)
    (ha : Announcement (.acted pid a (Server.act D a w.state).1) w.log) :
    announcing.Keeps w ((chat D).perform pid a w) := by
  apply announcing_keeps_quiet hi rfl (Server.act_messages D a w.state) ha
  intro pid' id h'
  obtain ⟨spelling, senderId, text, now, m, h⟩ := h'
  exact ⟨spelling, senderId, text, now, m, (List.mem_cons.mp h).resolve_left nofun⟩

theorem announcing_keeps_answer (q : Query) (hi : Announced w) :
    announcing.Keeps w ((chat D).respond pid q w) := by
  have hafter := Server.answer_messages D q w.state
  -- The entry is a creation, under an id that was not in use, or tells of none.
  have hnew : ∀ pid' id, CreatedBy pid' id ((chat D).respond pid q w).log →
      CreatedBy pid' id w.log ∨ pid' = pid ∧ (∀ m ∈ w.state.messages.docs, m.id ≠ id) ∧
        ∃ m ∈ (Server.answer D q w.state).2.messages.docs, m.id = id := by
    intro pid' id hall
    obtain ⟨spelling, senderId, text, now, m, h⟩ := hall
    rcases List.mem_cons.mp h with h | h
    · injection h with hpid hq hanswer
      subst hq
      obtain ⟨_, hm, hinsert⟩ := Server.messageCreate_answer (eq_of_heq hanswer).symm
      obtain ⟨hdocs, hfresh⟩ := Data.Collection.insert_eq_some hinsert
      have hid : m.id = id := by rw [hm]
      refine .inr ⟨hpid, hid ▸ hfresh, m, ?_, hid⟩
      rw [hdocs]
      exact List.mem_append_right _ (List.mem_singleton_self m)
    · exact .inl ⟨spelling, senderId, text, now, m, h⟩
  refine ⟨⟨[_], rfl⟩, ?_, ?_, trivial, hi.each⟩
  · intro pid' id h
    rcases hnew pid' id h with h | ⟨_, _, h⟩
    · obtain ⟨m, hm, rfl⟩ := hi.stored pid' id h
      exact hafter.persists hm
    · exact h
  · intro pid' pid'' id h h'
    have hclash : ∀ {p}, CreatedBy p id w.log → ¬ ∀ m ∈ w.state.messages.docs, m.id ≠ id := by
      intro p hp hnone
      obtain ⟨m, hm, hid⟩ := hi.stored p id hp
      exact hnone m hm hid
    rcases hnew pid' id h with h | ⟨hp, hnone, _⟩
    · rcases hnew pid'' id h' with h' | ⟨_, hnone, _⟩
      · exact hi.creator pid' pid'' id h h'
      · exact absurd hnone (hclash h)
    · rcases hnew pid'' id h' with h' | ⟨hp', _, _⟩
      · exact absurd hnone (hclash h')
      · rw [hp, hp']

theorem announcing_keeps_reject (q : Query) (hi : Announced w) :
    announcing.Keeps w ((chat D).reject pid q w) := by
  refine announcing_keeps_quiet hi rfl rfl trivial ?_
  intro pid' messageId h'
  obtain ⟨spelling, senderId, text, now, m, h⟩ := h'
  exact ⟨spelling, senderId, text, now, m, Event.mem_of_succeeded h trivial id⟩

theorem announcing_keeps_arrival {call : Call} {s : Server} (hi : Announced w)
    (ha : call.accept w.state = some s) : announcing.Keeps w (arrival pid call s w) := by
  refine announcing_keeps_quiet hi rfl (accept_sameBehind ha).messages trivial ?_
  intro pid' id h'
  obtain ⟨spelling, senderId, text, now, m, h⟩ := h'
  exact ⟨spelling, senderId, text, now, m, (List.mem_cons.mp h).resolve_left nofun⟩

/-! ### Up to the announcement -/

/-- No announcement, and no report of a message sent. -/
def Discreet : Action → Prop
  | .emit _ (.messageNew _) => False
  | .emitFrom _ _ (.messageNew _) => False
  | .ack response => response.data = none
  | _ => True

theorem Discreet.announcement {a : Action} (h : Discreet a) (r : a.Reply)
    (log : Log) : Announcement (.acted pid a r) log := by
  cases a with
  | emit room event =>
    cases event with
    | messageNew payload => exact h.elim
    | _ => trivial
  | emitFrom socket room event =>
    cases event with
    | messageNew payload => exact h.elim
    | _ => trivial
  | ack response =>
    intro payload hdata
    rw [show response.data = none from h] at hdata
    cases hdata
  | _ => trivial

theorem announcing_steady_of_within {β : Type} {p : Chat β} {B : Query → Prop}
    (hp : p.Within Discreet B) : (chat D).Steady announcing p :=
  Steady.of_within (fun _ _ _ ha hi => announcing_keeps_act hi (ha.announcement _ _))
    (fun _ q _ _ hi => announcing_keeps_answer q hi) (fun _ q _ hi => announcing_keeps_reject q hi) hp

/-- The task has announced nothing yet, and `R` holds of the log. -/
def Pending (pid : Nat) (R : Log → Prop)
    (w : World chatInterface Server Failure Call) : Prop :=
  ¬ HasAnnounced pid w.log ∧ R w.log

variable {R : Log → Prop}

theorem Pending.meanwhile (hR : ∀ new log, R log → R (new ++ log)) (h : Pending pid R w)
    (hw : announcing.Meanwhile pid w w') : Pending pid R w' := by
  refine ⟨fun ⟨room, payload, receivers, hmem⟩ => ?_, ?_⟩
  · exact h.1 ⟨room, payload, receivers, (hw.mem_own rfl).mp hmem⟩
  · obtain ⟨new, hlog⟩ := hw.rel
    rw [hlog]
    exact hR new w.log h.2

theorem Pending.cons (hR : ∀ new log, R log → R (new ++ log)) (h : Pending pid R w)
    {e : Event chatInterface Failure Call} {s : Server} (he : ∀ room payload receivers,
      e ≠ .acted pid (.emit room (.messageNew payload)) receivers) :
    Pending pid R ⟨s, e :: w.log⟩ := by
  refine ⟨fun ⟨room, payload, receivers, hmem⟩ => ?_, hR [e] w.log h.2⟩
  refine h.1 ⟨room, payload, receivers, (List.mem_cons.mp hmem).resolve_left fun heq => ?_⟩
  exact he room payload receivers heq.symm

theorem Pending.of_within (hR : ∀ new log, R log → R (new ++ log)) {β : Type} {p : Chat β}
    {B : Query → Prop} (hp : p.Within Discreet B) {b : World chatInterface Server Failure Call}
    (hk : announcing.Keeps b w) (h : Pending pid R w) :
    (chat D).Safe announcing pid (fun _ b w => announcing.Keeps b w ∧ Pending pid R w) p b w := by
  refine Safe.of_within_own (fun h hw => h.meanwhile hR hw) ?_ ?_ ?_ hp hk h
  · intro a w ha hi h
    refine ⟨announcing_keeps_act hi (ha.announcement _ _), h.cons hR ?_⟩
    intro room payload receivers heq
    injection heq with _ ha'
    rw [ha'] at ha
    exact ha
  · exact fun q w _ hi h => ⟨announcing_keeps_answer q hi, h.cons hR (by simp)⟩
  · exact fun q w _ hi h => ⟨announcing_keeps_reject q hi, h.cons hR (by simp)⟩

theorem SendsTo.append {pid : Nat} {spelling : Text}
    (new : Log) {log : Log}
    (h : SendsTo pid spelling log) : SendsTo pid spelling (new ++ log) := by
  obtain ⟨socket, args, id, input, hmem, hinput⟩ := h
  exact ⟨socket, args, id, input, List.mem_append_right new hmem, hinput⟩

theorem CreatedBy.append {pid : Nat} {id : ObjectId}
    (new : Log) {log : Log}
    (h : CreatedBy pid id log) : CreatedBy pid id (new ++ log) := by
  obtain ⟨spelling, senderId, text, now, m, hmem⟩ := h
  exact ⟨spelling, senderId, text, now, m, List.mem_append_right new hmem⟩

theorem Pending.created (hR : ∀ new log, R log → R (new ++ log)) (h : Pending pid R w)
    {id senderId : ObjectId} {spelling text : Text} {now : Nat} {message : Message}
    (hm : (Server.answer D (.messageCreate id spelling senderId text now) w.state).1 = .ok message) :
    Pending pid (fun log => R log ∧ CreatedBy pid message.id log)
      ((chat D).respond pid (.messageCreate id spelling senderId text now) w) := by
  have hid : message.id = id := by
    rw [(Server.messageCreate_answer hm).2.1]
  have hpending : Pending pid R
      ((chat D).respond pid (.messageCreate id spelling senderId text now) w) := h.cons hR (by simp)
  refine ⟨hpending.1, hpending.2, spelling, senderId, text, now, message, ?_⟩
  rw [hid, respond, ← hm]
  exact List.mem_cons_self

theorem createMessage_pending (hR : ∀ new log, R log → R (new ++ log)) (id senderId : ObjectId)
    (input : SendMessageInput) {b : World chatInterface Server Failure Call}
    (hk : announcing.Keeps b w) (h : Pending pid R w) :
    (chat D).Safe announcing pid (fun r b w => announcing.Keeps b w ∧ ∀ m, r = .ok m →
      Pending pid (fun log => R log ∧ CreatedBy pid m.message.id log) w)
      (createMessage id senderId input) b w := by
  have hfind : (query (.conversationFindOne (.string input.conversationId) senderId)).Within
      Discreet fun _ => True := (Program.within_query _).mpr trivial
  refine (safe_bind _ _ _ _ _).mpr ((h.of_within hR hfind hk).mono ?_)
  intro result b w h'
  obtain ⟨hk, h⟩ := h'
  rcases result with e | conversation
  · exact ⟨hk, nofun⟩
  · cases conversation with
    | none => exact ⟨hk, nofun⟩
    | some conversation =>
      have hnow : announcing.Keeps w ((chat D).perform pid .now w) :=
        announcing_keeps_act hk.inv trivial
      refine (safe_bind _ _ _ _ _).mpr ((safe_bind _ _ _ _ _).mpr
        (Safe.of_query (hk.trans hnow) ?_ ?_ ?_ ?_))
      · exact fun w₁ hw₁ _ => announcing_keeps_answer _ hw₁.inv
      · exact fun w₁ hw₁ _ => announcing_keeps_reject _ hw₁.inv
      · intro message w₁ w₂ hw₁ hmessage hstep hw₂
        have hR' : ∀ new log, R log ∧ CreatedBy pid message.id log →
            R (new ++ log) ∧ CreatedBy pid message.id (new ++ log) :=
          fun new log h => ⟨hR new log h.1, h.2.append new⟩
        have hcreated := ((h.cons hR (by simp)).meanwhile hR hw₁).created (D := D) hR hmessage
        have hw₂' := hcreated.meanwhile hR' hw₂
        have hnow₂ : announcing.Keeps w₂ ((chat D).perform pid .now w₂) :=
          announcing_keeps_act hw₂.inv trivial
        have hpending := hw₂'.cons hR' (s := (Server.act D .now w₂.state).2)
          (e := .acted pid .now (Server.act D .now w₂.state).1) (by simp)
        have hwithin : ∀ q, (query q).Within Discreet fun _ => True :=
          fun q => (Program.within_query (I := chatInterface) q).mpr trivial
        -- Neither the save nor the lookup of the sender changes what is pending.
        refine (safe_bind _ _ _ _ _).mpr ((safe_bind _ _ _ _ _).mpr
          ((hpending.of_within hR' (hwithin _) hnow₂).mono ?_))
        intro result b w h'
        obtain ⟨hk, h⟩ := h'
        rcases result with e | _
        · exact ⟨hk, nofun⟩
        · refine (safe_bind _ _ _ _ _).mpr ((h.of_within hR' (hwithin _) hk).mono ?_)
          intro result b w h'
          obtain ⟨hk, h⟩ := h'
          rcases result with e | sender
          · exact ⟨hk, nofun⟩
          · refine ⟨hk, fun m hm => ?_⟩
            cases hm
            exact h
      · exact fun e w₁ w₂ _ h => ⟨.refl h.keeps.inv, nofun⟩

/-- Only `message:send` announces, and reports a message sent. -/
theorem Call.Acts.discreet {call : Call} {a : Action} (h : call.Acts a)
    (hcall : ∀ socket args id, call ≠ .event socket .messageSend args id) : Discreet a := by
  cases call with
  | event socket name args id =>
    cases name with
    | messageSend => exact absurd rfl (hcall socket args id)
    | typing signal =>
      cases a with
      | emitFrom other room event => cases event <;> trivial
      | _ => exact h.elim
    | _ =>
      cases a with
      | emit room event => cases event <;> trivial
      | emitFrom other room event => cases event <;> trivial
      | ack response => exact h
      | _ => trivial
  | _ =>
    cases a with
    | emit room event => cases event <;> trivial
    | _ => trivial

/-- What may follow an error: a report of failure. -/
theorem callAck_announcing (ack : Value) {r : SocketAck} (h : r.data = none) :
    (chat D).Steady announcing (callAck ack r) :=
  announcing_steady_of_within (B := fun _ => True) (callAck_within ack r h)

/-- The announcement of a message that its task has created, and the report. -/
theorem announce_safe {spelling : Text} {message : PopulatedMessage} (ack : Value)
    {b : World chatInterface Server Failure Call} (hk : announcing.Keeps b w)
    (h : Pending pid (fun log => SendsTo pid spelling log ∧ CreatedBy pid message.message.id log) w) :
    (chat D).Safe announcing pid (fun _ b w => announcing.Keeps b w)
      ((perform (.emit spelling (.messageNew (toSocketPayload message)))).bind fun _ =>
        callAck ack { success := true, data := some (toSocketPayload message) }) b w := by
  have hemit : announcing.Keeps w
      ((chat D).perform pid (.emit spelling (.messageNew (toSocketPayload message))) w) :=
    announcing_keeps_act hk.inv ⟨h.2.2, h.1⟩
  apply (safe_bind _ _ _ _ _).mpr
  show (chat D).Safe announcing pid _ (callAck _ _) b _
  unfold callAck
  split
  · exact hk.trans hemit
  · split
    · refine (hk.trans hemit).trans (announcing_keeps_act hemit.inv ?_)
      intro payload hpayload
      cases hpayload
      exact ⟨spelling, _, w.log, rfl, h.2.1.append [_]⟩
    · exact hk.trans hemit

theorem messageSend_announcing {id : ObjectId} {socket : Socket} {args : List Value} {id' : ObjectId}
    (ack : Value) {b : World chatInterface Server Failure Call} (hk : announcing.Keeps b w)
    (h : ¬ HasAnnounced pid w.log)
    (harrived : .arrived pid (.event socket .messageSend args id') ∈ w.log) :
    (chat D).Safe announcing pid (fun _ b w => announcing.Keeps b w)
      (messageSend D id socket (args.getD 0 .undefined) ack) b w := by
  refine (safe_tryCatch _ _ _ _ _).mpr (Safe.mono (Q := fun _ b w => announcing.Keeps b w) ?_ ?_)
  · let R : Log → Prop :=
      fun log => .arrived pid (.event socket .messageSend args id') ∈ log
    have hR : ∀ new log, R log → R (new ++ log) := fun new log h => List.mem_append_right new h
    have hlimit : (perform (.checkMessageRateLimit socket.userId)).Within Discreet fun _ => True :=
      (Program.within_perform _).mpr trivial
    refine (safe_bind _ _ _ _ _).mpr ((Pending.of_within (R := R) hR hlimit hk ⟨h, harrived⟩).mono ?_)
    intro r b w h'
    obtain ⟨hk, h⟩ := h'
    rcases r with e | allowed
    · exact hk
    · show (chat D).Safe announcing pid _ (if (!allowed) = true then _ else _) b w
      split
      · exact callAck_announcing ack rfl pid b w hk
      · have hparse : (parseWith sendMessageSchema (args.getD 0 .undefined)).Within Discreet
            fun _ => True := parseWith_within _ _
        refine (safe_bind _ _ _ _ _).mpr (((h.of_within hR hparse hk).and_ends
          (parseWith_ends _ _)).mono ?_)
        intro r b w h'
        obtain ⟨⟨hk, h⟩, hinput⟩ := h'
        rcases r with e | input
        · exact hk
        · have hsends : Pending pid (SendsTo pid input.conversationId) w :=
            ⟨h.1, socket, args, id', input, h.2, hinput input rfl, rfl⟩
          refine (safe_bind _ _ _ _ _).mpr ((createMessage_pending (fun new log h => h.append new)
            id socket.userId input hk hsends).mono ?_)
          intro r b w h'
          obtain ⟨hk, h⟩ := h'
          rcases r with e | message
          · exact hk
          · exact announce_safe ack hk (h message rfl)
  · intro r b w hk
    rcases r with e | v
    · cases e <;> exact callAck_announcing ack rfl pid b w hk
    · exact hk

theorem body_announcing {call : Call} {s : Server} (hi : Announced w)
    (hfresh : ∀ e ∈ w.log, e.pid ≠ pid) (ha : call.accept w.state = some s) :
    (chat D).Safe announcing pid (fun _ b w => announcing.Keeps b w) (Call.body D call) w
      (arrival pid call s w) := by
  have hk : announcing.Keeps w (arrival pid call s w) := announcing_keeps_arrival hi ha
  have hwithin : (∀ a, call.Acts a → Discreet a) → (chat D).Safe announcing pid
      (fun _ b w => announcing.Keeps b w) (Call.body D call) w (arrival pid call s w) := fun h =>
    announcing_steady_of_within ((body_within D call).mono h fun _ h => h) pid w _ hk
  cases call with
  | event socket name args id =>
    cases name with
    | messageSend =>
      refine (safe_bind _ _ _ _ _).mpr ((messageSend_announcing (args.getD 1 .undefined) hk ?_
        List.mem_cons_self).mono ?_)
      · intro h'
        obtain ⟨room, payload, receivers, h⟩ := h'
        exact hfresh _ ((List.mem_cons.mp h).resolve_left nofun) rfl
      · rintro (e | v) b w hk <;> exact hk
    | _ => exact hwithin fun a ha => ha.discreet (by simp)
  | _ => exact hwithin fun a ha => ha.discreet (by simp)

end

theorem chat_upholds_announcing (D : Deployment) :
    (chat D).Upholds announcing fun _ _ _ _ => True :=
  ⟨fun _ _ _ _ hi hfresh ha => (body_announcing hi hfresh ha).mono fun _ _ _ hk _ => ⟨hk, trivial⟩,
    fun _ _ hi => ⟨⟨[], rfl⟩, hi.stored, hi.creator, hi.each⟩, fun _ _ _ _ _ _ _ => trivial⟩

theorem announced_run (D : Deployment) (s : Server) (moves : List (Move Call)) :
    Announced ((chat D).run (Config.start s) moves).world := by
  have hnone : ∀ pid id, ¬ CreatedBy pid id [] := by
    intro pid id ⟨_, _, _, _, _, h⟩
    cases h
  have hstart : Announced ⟨s, []⟩ :=
    ⟨fun pid id h => absurd h (hnone pid id), fun pid _ id h _ => absurd h (hnone pid id), trivial⟩
  exact ((Sound.start hstart).run (chat_upholds_announcing D) moves trivial).1.inv

/-! ### The announcement of a message -/

/-- The event brings the announcement of the message to the socket. -/
def Receives (socket : Socket) (id : ObjectId) : Event chatInterface Failure Call → Bool
  | .acted _ (.emit _ (.messageNew payload)) receivers =>
    payload.id == id && decide (socket ∈ receivers)
  | .acted _ (.emitFrom _ _ (.messageNew payload)) receivers =>
    payload.id == id && decide (socket ∈ receivers)
  | _ => false

/-- How often the socket has received the announcement of the message. -/
def copies (socket : Socket) (id : ObjectId) (log : Log) : Nat :=
  log.countP (Receives socket id)

/-- The task's `message:send` has been acknowledged with success, `earlier` being the log
until then. -/
def SentAt (pid : Nat) (payload : SocketMessagePayload)
    (earlier log : Log) : Prop :=
  (∃ socket args id, .arrived pid (.event socket .messageSend args id) ∈ log) ∧
    ∃ later response, response.success = true ∧ response.data = some payload ∧
      log = later ++ .acted pid (.ack response) () :: earlier

/-- In `earlier`, the connect handler or an acknowledged `conversation:join` has put the
socket into a room of the conversation, and no `conversation:leave` for it has come since. -/
def Joined (D : Deployment) (socket : Socket) (conversationId : ObjectId)
    (earlier log : Log) : Prop :=
  ∃ after before pid rooms, earlier = after ++ .acted pid (.join socket rooms) () :: before ∧
    (∃ room ∈ rooms, ObjectId.cast room = some conversationId) ∧
    (.arrived pid (.connect socket) ∈ before ∨
      ∃ args id response, .arrived pid (.event socket .conversationJoin args id) ∈ before ∧
        .acted pid (.ack response) () ∈ log ∧ response.success = true) ∧
    ∀ pid' args id, .arrived pid' (.event socket .conversationLeave args id) ∈ after →
      D.cast (args.getD 0 .undefined) ≠ some conversationId

/-- Whoever has joined the conversation of a message that is sent hears of it once. -/
def HeardByAll (D : Deployment) (log : Log) : Prop :=
  ∀ pid payload earlier, SentAt pid payload earlier log → ∀ socket, IsConnected socket earlier →
    Joined D socket payload.conversationId earlier log → copies socket payload.id log = 1

/-- Whoever has joined the conversation of a message that is sent has last joined, not left,
it under the very spelling that the sender used. -/
def SpelledAlike (D : Deployment) (log : Log) : Prop :=
  ∀ pid payload earlier, SentAt pid payload earlier log → ∀ socket, IsConnected socket earlier →
    Joined D socket payload.conversationId earlier log →
      ∀ spelling, SendsTo pid spelling log → joinedLast spelling socket earlier = true

section
variable {D : Deployment} {w : World chatInterface Server Failure Call}

/-- What brings the announcement of a message is an emit of the task that has created it. -/
theorem Announced.receives (hi : Announced w) {later earlier : Log}
    {e : Event chatInterface Failure Call} (hlog : w.log = later ++ e :: earlier) {socket : Socket}
    {id : ObjectId} (he : Receives socket id e = true) :
    ∃ pid room payload receivers, e = .acted pid (.emit room (.messageNew payload)) receivers ∧
      CreatedBy pid id earlier ∧ ¬ HasAnnounced pid earlier := by
  have hannounced := (Each.at (hlog ▸ hi.each)).1
  cases e with
  | acted pid a r =>
    cases a with
    | emit room event =>
      cases event with
      | messageNew payload =>
        simp only [Receives, Bool.and_eq_true, beq_iff_eq] at he
        rw [← he.1]
        exact ⟨pid, room, payload, r, rfl, hannounced⟩
      | _ => cases he
    | emitFrom other room event =>
      cases event with
      | messageNew payload => exact hannounced.elim
      | _ => cases he
    | _ => cases he
  | _ => cases he

/-- A message is announced once. -/
theorem Announced.copies (hi : Announced w) {pid : Nat} {room : Text}
    {payload : SocketMessagePayload} {receivers : List Socket}
    {later earlier : Log}
    (hlog : w.log = later ++ .acted pid (.emit room (.messageNew payload)) receivers :: earlier)
    (socket : Socket) : copies socket payload.id w.log = 1 ↔ socket ∈ receivers := by
  obtain ⟨hcreated, hfirst⟩ : CreatedBy pid payload.id earlier ∧ ¬ HasAnnounced pid earlier :=
    (Each.at (hlog ▸ hi.each)).1
  have hwhole : ∀ {pid' front e back}, w.log = front ++ e :: back → CreatedBy pid' payload.id back →
      CreatedBy pid' payload.id w.log := by
    intro pid' front e back hsplit h
    rw [hsplit, List.append_cons]
    exact h.append _
  have hcreated' := hwhole hlog hcreated
  have hlater : later.countP (Receives socket payload.id) = 0 := by
    apply List.countP_eq_zero.mpr
    intro e he hreceives
    obtain ⟨front, back, rfl⟩ := List.append_of_mem he
    rw [List.append_assoc, List.cons_append] at hlog
    obtain ⟨pid', room', payload', receivers', rfl, hby, hnone⟩ := hi.receives hlog hreceives
    refine hnone ⟨room, payload, receivers, List.mem_append_right _ ?_⟩
    rw [hi.creator pid' pid payload.id (hwhole hlog hby) hcreated']
    exact List.mem_cons_self
  have hearlier : earlier.countP (Receives socket payload.id) = 0 := by
    apply List.countP_eq_zero.mpr
    intro e he hreceives
    obtain ⟨front, back, rfl⟩ := List.append_of_mem he
    have hsplit : w.log = (later ++ .acted pid (.emit room (.messageNew payload)) receivers :: front) ++
        e :: back := by
      rw [hlog, List.append_assoc, List.cons_append]
    obtain ⟨pid', room', payload', receivers', rfl, hby, _⟩ := hi.receives hsplit hreceives
    refine hfirst ⟨room', payload', receivers', List.mem_append_right _ ?_⟩
    rw [hi.creator pid pid' payload.id hcreated' (hwhole hsplit hby)]
    exact List.mem_cons_self
  rw [RealtimeChat.copies, hlog, List.countP_append, List.countP_cons, hlater, hearlier]
  simp [Receives]

theorem Announced.copies_le_one (hi : Announced w) (socket : Socket) (id : ObjectId) :
    RealtimeChat.copies socket id w.log ≤ 1 := by
  by_cases hnone : RealtimeChat.copies socket id w.log = 0
  · omega
  · obtain ⟨e, hmem, hreceives⟩ := List.countP_pos_iff.mp (Nat.pos_of_ne_zero hnone)
    obtain ⟨later, earlier, hlog⟩ := List.append_of_mem hmem
    obtain ⟨pid, room, payload, receivers, rfl, -⟩ := hi.receives hlog hreceives
    simp only [Receives, Bool.and_eq_true, beq_iff_eq, decide_eq_true_eq] at hreceives
    rw [← hreceives.1, (hi.copies hlog socket).mpr hreceives.2]

end

/-- **Who hears of a message.** In any run of the server, from any database, each sent
message reaches everyone who has joined exactly if they joined it, and have not left
it, under the spelling that its sender used. -/
theorem announced_iff (D : Deployment) (users : Users) (conversations : Conversations)
    (messages : Messages) (clock : Nat) (moves : List (Move Call)) :
    HeardByAll D ((chat D).run (Config.start
      (Server.boot users conversations messages clock)) moves).world.log ↔
      SpelledAlike D ((chat D).run (Config.start
        (Server.boot users conversations messages clock)) moves).world.log := by
  have hpresent := (Present.start (Server.boot users conversations messages clock)).run (chat D) moves
  have hrecorded := run_recorded D users conversations messages clock moves
  have hannounced := announced_run D (Server.boot users conversations messages clock) moves
  generalize (chat D).run (Config.start (Server.boot users conversations messages clock)) moves = c
    at hpresent hrecorded hannounced ⊢
  -- Each announcement, and each socket, on its own.
  have heach : ∀ pid payload earlier, SentAt pid payload earlier c.world.log → ∀ socket,
      IsConnected socket earlier → ∃ spelling, SendsTo pid spelling c.world.log ∧
        (copies socket payload.id c.world.log = 1 ↔ joinedLast spelling socket earlier = true) := by
    intro pid payload earlier h' socket hconnected
    obtain ⟨_, later, response, _, hdata, hlog⟩ := h'
    have hreport : Announcement (.acted pid (.ack response) ()) earlier :=
      (Each.at (hlog ▸ hannounced.each)).1
    obtain ⟨spelling, receivers, rest, rfl, hsends⟩ := hreport payload hdata
    rw [List.append_cons] at hlog
    refine ⟨spelling, hlog ▸ hsends.append _, ?_⟩
    have hvalid : ObjectId.isValid spelling = true := by
      obtain ⟨_, _, _, input, _, hparse, rfl⟩ := hsends
      exact sendMessage_isValid hparse
    have hreaches : Reaches (.acted pid (.emit spelling (.messageNew payload)) receivers) rest :=
      (Each.at (hlog ▸ hrecorded.reached)).1
    rw [hannounced.copies hlog, hreaches hvalid, joinedLast_cons (by simp)]
    exact and_iff_right ((isConnected_cons (by simp) socket).mp hconnected)
  have hunique : ∀ pid spelling spelling', SendsTo pid spelling c.world.log →
      SendsTo pid spelling' c.world.log → spelling = spelling' := by
    intro pid _ _ h' hall
    obtain ⟨socket, args, id, input, hmem, hparse, rfl⟩ := h'
    obtain ⟨_, _, _, input', hmem', hparse', rfl⟩ := hall
    cases hpresent.unique hmem hmem'
    rw [hparse] at hparse'
    cases hparse'
    rfl
  constructor
  · intro h pid payload earlier hsent socket hconnected hjoined spelling hspelling
    obtain ⟨spelling', hspelling', hiff⟩ := heach pid payload earlier hsent socket hconnected
    rw [hunique pid spelling spelling' hspelling hspelling']
    exact hiff.mp (h pid payload earlier hsent socket hconnected hjoined)
  · intro h pid payload earlier hsent socket hconnected hjoined
    obtain ⟨spelling, hspelling, hiff⟩ := heach pid payload earlier hsent socket hconnected
    exact hiff.mpr (h pid payload earlier hsent socket hconnected hjoined spelling hspelling)

/-! A conversation whose id has a letter. Its members are connected, and one of them
writes to it in capitals. -/

def writer : Socket := ⟨.ofChar 'a', .ending 1, "ann".toList⟩

def reader : Socket := ⟨.ofChar 'b', .ending 2, "bob".toList⟩

def capitalRun : List (Move Call) :=
  [.arrive (.connect reader), .answer 0, .resume 0, .arrive (.connect writer),
    .arrive (.event writer .messageSend
      [.object [("conversationId", .string ObjectId.capitals), ("text", .string "hi".toList)], .function]
      (.ending 4)),
    .answer 2, .resume 2, .answer 2, .resume 2, .answer 2, .resume 2, .answer 2, .resume 2]

def capitalLog : Log :=
  ((chat .default).run (Config.start (.boot .empty
    ⟨[⟨.ending 10, .oneToOne, none, [.ending 1, .ending 2], none, 0, 0⟩], by decide⟩ .empty 0))
      capitalRun).world.log

theorem capitals_unheard : ¬ HeardByAll .default capitalLog := by
  intro h
  have hsent : SentAt 2 ⟨.ending 4, .ending 10, none, "hi".toList, .sent, IsoDate.toISOString 0,
      IsoDate.toISOString 0⟩ capitalLog.tail capitalLog :=
    ⟨⟨_, _, _, List.mem_of_getElem? (i := 9) rfl⟩, [], _, rfl, rfl, rfl⟩
  have hjoined : Joined .default reader (.ending 10) capitalLog.tail capitalLog := by
    refine ⟨capitalLog.tail.take 10, capitalLog.tail.drop 11, 0, [(ObjectId.ending 10).toString],
      rfl, ⟨_, List.mem_singleton_self _, ObjectId.cast_toString _⟩,
      .inl (List.mem_of_getElem? (i := 1) rfl), fun pid args id hleave => ?_⟩
    obtain ⟨args', harrived⟩ : ∃ args, arrivals (capitalLog.tail.take 10) =
        [.event writer .messageSend args (.ending 4), .connect writer] := ⟨_, rfl⟩
    have hmem := mem_arrivals hleave
    rw [harrived] at hmem
    simp at hmem
  have hcopies := h 2 _ _ hsent reader
    ⟨⟨0, List.mem_of_getElem? (i := 12) rfl⟩, by decide +kernel⟩ hjoined
  revert hcopies
  decide +kernel

end RealtimeChat
