import RealtimeChat.Handlers.Lawful
import RealtimeChat.Receipts.StatusOrder

/-! Whether each message is reported as read once.

`markMessagesRead` first finds the unread messages and then updates them; what its
handler broadcasts is the list found. If another update gets in between, the
messages that it lists are reported a second time, by a call that has changed
nothing. As long as no update is so disturbed, every change is reported once and
nothing else is (`reportedOnce_iff`). -/
namespace RealtimeChat
open Data (Text)
open Zod (Value)
open Async Async.System

/-- No `message:delivered` has arrived. -/
def NoneDelivered (log : Log) : Prop :=
  ∀ pid socket args id, .arrived pid (.event socket .messageDelivered args id) ∉ log

/-- The event is a `message:read` that lists the message. -/
def ServerEvent.lists (id : ObjectId) : ServerEvent → Bool
  | .messageRead _ messageIds _ => messageIds.contains id
  | _ => false

/-- The entry is a broadcast of such an event. -/
def Broadcasts (id : ObjectId) : Event chatInterface Failure Call → Bool
  | .acted _ (.emit _ event) _ => event.lists id
  | .acted _ (.emitFrom _ _ event) _ => event.lists id
  | _ => false

/-- The answer to a query of the task has made the message `read`, which it was not. -/
def ChangedBy (D : Deployment) (s : Server) (moves : List (Move Call)) (pid : Nat) (id : ObjectId) :
    Prop :=
  ∃ before, before ++ [.answer pid] <+: moves ∧
    statusOf id ((chat D).run (Config.start s) before).world.state ≠ some .read ∧
    statusOf id ((chat D).run (Config.start s) (before ++ [.answer pid])).world.state = some .read

/-- Whatever has become `read` has been broadcast once, and every broadcast lists only
what its own call has changed. -/
structure ReportedOnce (D : Deployment) (s : Server) (moves : List (Move Call)) : Prop where
  once : ∀ id, statusOf id s ≠ some .read →
    statusOf id ((chat D).run (Config.start s) moves).world.state = some .read →
    ((chat D).run (Config.start s) moves).world.log.countP (Broadcasts id) = 1
  own : ∀ pid room c ids userId receivers, .acted pid (.emit room (.messageRead c ids userId))
    receivers ∈ ((chat D).run (Config.start s) moves).world.log → ∀ id ∈ ids, ChangedBy D s moves pid id

/-- Between a call's query for the unread messages and its update, another update has set
one of them to `read`. -/
def Disturbed (log : Log) : Prop :=
  ∃ pid ids now c userId upTo later between earlier,
    log = later ++ .answered pid (.messageUpdateMany ids now) (.ok ()) :: between ++
      .answered pid (.messageFindUnread c userId upTo) (.ok ids) :: earlier ∧
    ∃ id ∈ ids, ReadIn id between

/-! ### One task -/

/-- Before it updates anything, a task has made these steps and no others. -/
theorem Reading.of_update {u : ObjectId} {later before : Deeds} {ids : List ObjectId} {now : Nat}
    {r : Except Failure Unit}
    (h : Lawful (Reading.law u) (later ++ .answered (.messageUpdateMany ids now) r :: before)) :
    ∃ c reader upTo messageId c' m v w conversation, before =
      [.acted .now now, .answered (.messageFindUnread c reader upTo) (.ok ids),
        .answered (.messageFindOne messageId c') (.ok (some m)),
        .answered (.conversationFindOne v w) (.ok (some conversation))] := by
  obtain ⟨⟨c, reader, upTo, rest, _, rfl⟩, hbefore⟩ := h.at
  obtain ⟨⟨messageId, c', m, rest', rfl⟩, hrest⟩ := (hbefore.2 : Lawful _ (_ :: rest))
  obtain ⟨⟨v, w, conversation, rfl⟩, -⟩ := (hrest : Lawful _ (_ :: rest'))
  exact ⟨c, reader, upTo, messageId, c', m, v, w, conversation, rfl⟩

theorem Call.asks_update {call : Call} {ids : List ObjectId} {now : Nat}
    (h : call.Asks (.messageUpdateMany ids now)) :
    ∃ socket args id, call = .event socket .messageRead args id := by
  cases call with
  | event socket name args id =>
    cases name with
    | messageRead => exact ⟨socket, args, id, rfl⟩
    | _ => exact h.elim
  | _ => exact h.elim

theorem Call.acts_read {call : Call} {room c : Text} {ids : List ObjectId} {userId : ObjectId}
    (h : call.Acts (.emit room (.messageRead c ids userId))) :
    ∃ socket args id, call = .event socket .messageRead args id := by
  cases call with
  | event socket name args id =>
    cases name with
    | messageRead => exact ⟨socket, args, id, rfl⟩
    | _ => exact h.elim
  | _ => exact h.elim

section
variable {c : Config chatInterface Server Failure Call Response}
  {later earlier : Log} {pid : Nat}

/-- What a task has done before it updates. -/
theorem Behaved.updated (hb : Behaved c) {ids : List ObjectId} {now : Nat} {r : Except Failure Unit}
    (hlog : c.world.log = later ++ .answered pid (.messageUpdateMany ids now) r :: earlier) :
    ∃ c' reader upTo messageId c'' m v w conversation, deeds pid earlier =
      [.acted .now now, .answered (.messageFindUnread c' reader upTo) (.ok ids),
        .answered (.messageFindOne messageId c'') (.ok (some m)),
        .answered (.conversationFindOne v w) (.ok (some conversation))] := by
  obtain ⟨call, task, hentry, hlaw⟩ := hb.law hlog rfl
  obtain ⟨socket, args, id, rfl⟩ := Call.asks_update (Call.law_asks hlaw)
  have hlawful := hb.lawful pid _ hentry
  rw [hlog, deeds_append, deeds_answered] at hlawful
  exact Reading.of_update (u := socket.userId) hlawful

/-- What a task broadcasts is what it has just updated. -/
theorem Behaved.broadcast (hb : Behaved c) {id : ObjectId} {e : Event chatInterface Failure Call}
    (hlog : c.world.log = later ++ e :: earlier) (he : Broadcasts id e = true) :
    ∃ pid room spelling ids userId receivers now rest,
      e = .acted pid (.emit room (.messageRead spelling ids userId)) receivers ∧ id ∈ ids ∧
      deeds pid earlier = .answered (.messageUpdateMany ids now) (.ok ()) :: rest ∧
      ∀ room' event r, .acted (.emit room' event) r ∉ rest := by
  cases e with
  | acted pid a r =>
    obtain ⟨call, task, hentry, hlaw⟩ := hb.law hlog rfl
    cases a with
    | emit room event =>
      cases event with
      | messageRead spelling ids userId =>
        obtain ⟨socket, args, id', rfl⟩ := Call.acts_read (Call.law_acts hlaw)
        have hlawful := hb.lawful pid _ hentry
        obtain ⟨c', ids', now, rest, heq, hdeeds⟩ := hlaw
        cases heq
        refine ⟨pid, room, _, _, _, r, now, rest, rfl, List.contains_iff_mem.mp he, hdeeds, ?_⟩
        rw [hlog, deeds_append, deeds_acted, show deeds pid earlier = _ from hdeeds,
          List.append_cons] at hlawful
        obtain ⟨_, _, _, _, _, _, _, _, _, rfl⟩ := Reading.of_update (u := socket.userId) hlawful
        simp
      | _ => cases he
    | emitFrom socket room event =>
      have hacts := Call.law_acts hlaw
      cases event with
      | messageRead spelling ids userId =>
        cases call with
        | event socket' name args id' => cases name <;> exact hacts.elim
        | _ => exact hacts.elim
      | _ => cases he
    | _ => cases he
  | _ => cases he

end

/-- Every update has been broadcast, if no `message:read` is in flight. -/
def Call.reports : Call → Deeds → Prop
  | .event socket .messageRead _ _ => Reading.reported socket.userId
  | _ => fun _ => True

theorem body_reports (D : Deployment) (call : Call) :
    (Call.body D call).Obeys call.law (fun before _ => call.reports before) [] := by
  have hother : call.reports = (fun _ => True) →
      (Call.body D call).Obeys call.law (fun before _ => call.reports before) [] := by
    intro h
    rw [h]
    exact (body_obeys D call).mono fun _ _ _ => trivial
  cases call with
  | event socket name args id =>
    cases name with
    | messageRead =>
      refine Program.obeys_bind.mpr ((messageRead_obeys D socket _ _).mono fun before r h => ?_)
      cases r <;> exact h
    | _ => exact hother rfl
  | _ => exact hother rfl

/-! ### Stored statuses, read off the log -/

/-- What a call finds unread has not been set to `read` before. -/
def FoundUnread (s : Server) : Event chatInterface Failure Call → Log → Prop
  | .answered _ (.messageFindUnread _ _ _) (.ok ids), earlier =>
    ∀ id ∈ ids, statusOf id s ≠ some .read ∧ ¬ ReadIn id earlier
  | _, _ => True

/-- In a run from `s`: the messages that are `read` are those that were, and those that an
update has listed. -/
structure Marked (s : Server) (w : World chatInterface Server Failure Call) : Prop where
  status : ∀ id, statusOf id w.state = some .read ↔ statusOf id s = some .read ∨ ReadIn id w.log
  stored : ∀ pid c userId upTo ids, .answered pid (.messageFindUnread c userId upTo) (.ok ids) ∈ w.log →
    ∀ id ∈ ids, statusOf id w.state ≠ none
  found : Each (FoundUnread s) w.log

theorem readIn_cons {id : ObjectId} {e : Event chatInterface Failure Call} {log : Log} :
    ReadIn id (e :: log) ↔ (∃ pid ids now, id ∈ ids ∧
      e = .answered pid (.messageUpdateMany ids now) (.ok ())) ∨ ReadIn id log := by
  simp only [ReadIn, List.mem_cons, and_or_left, exists_or]
  simp only [eq_comm]

section
variable {D : Deployment} {s : Server} {pid : Nat} {call : Call}
  {w w' : World chatInterface Server Failure Call}

/-- An entry that is no answer, or one that finds nothing and updates nothing. -/
theorem Marked.cons (hi : Marked s w) {e : Event chatInterface Failure Call} (hlog : w'.log = e :: w.log)
    (hread : ∀ id, statusOf id w'.state = some .read ↔ statusOf id w.state = some .read)
    (hstored : ∀ id, statusOf id w.state ≠ none → statusOf id w'.state ≠ none)
    (hupdate : ∀ pid ids now, e ≠ .answered pid (.messageUpdateMany ids now) (.ok ()))
    (hfind : ∀ pid c userId upTo ids, e = .answered pid (.messageFindUnread c userId upTo) (.ok ids) →
      ∀ id ∈ ids, statusOf id w.state ≠ none ∧ statusOf id w.state ≠ some .read) : Marked s w' := by
  refine ⟨fun id => ?_, fun pid c userId upTo ids hmem id hid => ?_, ?_⟩
  · rw [hread, hi.status, hlog, readIn_cons, or_iff_right (a := ∃ _, _)]
    intro h
    obtain ⟨pid, ids, now, _, heq⟩ := h
    exact hupdate pid ids now heq
  · rw [hlog] at hmem
    apply hstored
    rcases List.mem_cons.mp hmem with heq | hmem
    · exact (hfind pid c userId upTo ids heq.symm id hid).1
    · exact hi.stored pid c userId upTo ids hmem id hid
  · rw [hlog]
    refine ⟨?_, hi.found⟩
    cases e with
    | answered pid q r =>
      cases q with
      | messageFindUnread c userId upTo =>
        cases r with
        | ok ids =>
          intro id hid
          have hnot := (hfind pid c userId upTo ids rfl id hid).2
          rw [ne_eq, hi.status, not_or] at hnot
          exact hnot
        | error e => trivial
      | _ => trivial
    | _ => trivial

theorem Marked.same (hi : Marked s w) {e : Event chatInterface Failure Call} (hlog : w'.log = e :: w.log)
    (hs : w'.state.messages = w.state.messages) (he : ¬ e.Succeeded) : Marked s w' := by
  have hstatus : ∀ id, statusOf id w'.state = statusOf id w.state := fun id => by
    rw [statusOf, hs, ← statusOf]
  refine hi.cons hlog (fun id => by rw [hstatus]) (fun id h => by rwa [hstatus]) ?_ ?_
  · rintro pid ids now rfl
    exact he trivial
  · rintro pid c userId upTo ids rfl
    exact absurd trivial he

/-- The statuses that an update leaves. -/
theorem Marked.update (hi : Marked s w) {ids : List ObjectId} {now : Nat}
    (hstored : ∀ id ∈ ids, statusOf id w.state ≠ none) :
    Marked s ((chat D).respond pid (.messageUpdateMany ids now) w) := by
  have hread : ∀ id, statusOf id (w.state.setStatus (fun m => ids.contains m.id) .read now) =
      some .read ↔ statusOf id w.state = some .read ∨ id ∈ ids := by
    intro id
    rw [statusOf_setStatus]
    cases hfind : w.state.messages.find id with
    | none =>
      simp only [statusOf, hfind, Option.map_none, reduceCtorEq, false_or, false_iff]
      exact fun hid => hstored id hid (by rw [statusOf, hfind]; rfl)
    | some m =>
      have hid := (Data.Collection.find_eq_some.mp hfind).2
      simp only [statusOf, hfind, Option.map_some, hid, List.contains_iff_mem]
      by_cases h : id ∈ ids <;> simp [h]
  refine ⟨fun id => ?_, fun pid' c userId upTo ids' hmem id hid => ?_, trivial, hi.found⟩
  · show statusOf id (w.state.setStatus _ .read now) = some .read ↔ _ ∨ ReadIn id (_ :: w.log)
    rw [hread, hi.status, readIn_cons, or_assoc, or_comm (a := ReadIn id w.log)]
    refine or_congr_right (or_congr_left ?_)
    constructor
    · exact fun hid => ⟨pid, ids, now, hid, rfl⟩
    · intro h
      obtain ⟨_, _, _, hid, heq⟩ := h
      injection heq with _ hq
      injection hq with hids
      exact hids ▸ hid
  · have hold := hi.stored pid' c userId upTo ids' ((List.mem_cons.mp hmem).resolve_left (by simp)) id hid
    show statusOf id (w.state.setStatus _ .read now) ≠ none
    rw [statusOf_setStatus, ne_eq, Option.map_eq_none_iff]
    rwa [statusOf, ne_eq, Option.map_eq_none_iff] at hold

/-- Any other answer, if no document is saved. -/
theorem Marked.answer (hi : Marked s w) {q : Query}
    (hupdate : ∀ ids now, q ≠ .messageUpdateMany ids now)
    (hsave : ∀ id status now, q ≠ .messageSave id status now) :
    Marked s ((chat D).respond pid q w) := by
  have hafter := Server.answer_messages D q w.state
  have hkept : ∀ id status, statusOf id w.state = some status →
      statusOf id (Server.answer D q w.state).2 = some status := by
    intro id status hs
    cases hafter with
    | same h => rw [statusOf, h, ← statusOf, hs]
    | created hcast hanswer h =>
      obtain ⟨m, hm, rfl⟩ := Option.map_eq_some_iff.mp hs
      have hne := (Data.Collection.insert_eq_some h).2 m (Data.Collection.find_eq_some.mp hm).1
      rw [(Data.Collection.find_eq_some.mp hm).2] at hne
      rw [statusOf, Data.Collection.find_insert h, if_neg (Ne.symm hne), hm]
      rfl
    | saved h => exact absurd rfl (hsave _ _ _)
    | updated h => exact absurd rfl (hupdate _ _)
  refine hi.cons rfl (fun id => ⟨fun hread => ?_, hkept id .read⟩) (fun id hs => ?_) ?_ ?_
  · by_contra hnot
    obtain ⟨ids, now, rfl, _⟩ := hafter.becomes_read
      (fun id status now h => absurd h (hsave id status now)) hnot hread
    exact hupdate ids now rfl
  · obtain ⟨status, hstatus⟩ := Option.ne_none_iff_exists'.mp hs
    rw [show statusOf id ((chat D).respond pid q w).state = _ from hkept id status hstatus]
    exact Option.some_ne_none status
  · intro pid' ids now heq
    injection heq with _ hq
    exact hupdate ids now hq
  · intro pid' c userId upTo ids heq id hid
    injection heq with _ hq hanswer
    subst hq
    have hanswer : (Server.answer D (.messageFindUnread c userId upTo) w.state).1 = .ok ids :=
      eq_of_heq hanswer
    simp only [Server.answer, Server.casting] at hanswer
    split at hanswer
    · obtain rfl := Except.ok.inj hanswer
      obtain ⟨m, hm, rfl⟩ := List.mem_map.mp hid
      obtain ⟨hmem, hmatches⟩ := List.mem_filter.mp hm
      have hstatus : statusOf m.id w.state = some m.status := by
        rw [statusOf, Data.Collection.find_eq_some.mpr ⟨hmem, rfl⟩]
        rfl
      simp only [Server.matchesUnread, Bool.and_eq_true, bne_iff_ne] at hmatches
      rw [hstatus]
      exact ⟨Option.some_ne_none _, fun h => hmatches.1.2 (Option.some.inj h)⟩
    · cases hanswer

theorem NoneDelivered.earlier {new log : Log} (h : NoneDelivered (new ++ log)) : NoneDelivered log :=
  fun pid socket args id hmem => h pid socket args id (List.mem_append_right new hmem)

end

/-- **Stored statuses in every run** without `message:delivered`. -/
theorem run_marked (D : Deployment) (s : Server) (moves : List (Move Call))
    (h : NoneDelivered ((chat D).run (Config.start s) moves).world.log) :
    Marked s ((chat D).run (Config.start s) moves).world := by
  have hpreserves : (chat D).Preserves Call.law fun w => NoneDelivered w.log → Marked s w := by
    refine ⟨?_, ?_, ?_, ?_, ?_⟩
    · intro pid call a w hi _ _ hnone
      exact (hi (@NoneDelivered.earlier [_] _ hnone)).same rfl (Server.act_messages D a w.state) id
    · intro pid call q w hi harrived hlaw hnone
      have hbefore : NoneDelivered w.log := @NoneDelivered.earlier [_] _ hnone
      by_cases hupdate : ∃ ids now, q = .messageUpdateMany ids now
      · obtain ⟨ids, now, rfl⟩ := hupdate
        obtain ⟨socket, args, id, rfl⟩ := Call.asks_update (Call.law_asks hlaw)
        obtain ⟨c, userId, upTo, rest, _, hdeeds⟩ := hlaw
        refine (hi hbefore).update fun id hid => ?_
        have hfound : .answered (.messageFindUnread c userId upTo) (.ok ids) ∈ deeds pid w.log := by
          rw [hdeeds]
          exact .tail _ (.head _)
        exact (hi hbefore).stored pid c userId upTo ids (mem_deeds_answered.mp hfound) id hid
      · refine (hi hbefore).answer (fun ids now h => hupdate ⟨ids, now, h⟩) fun id status now h => ?_
        subst h
        have hasks := Call.law_asks hlaw
        cases call with
        | event socket name args id =>
          cases name with
          | messageDelivered => exact hbefore pid socket args id harrived
          | _ => exact hasks.elim
        | _ => exact hasks.elim
    · intro pid call q w hi _ _ hnone
      exact (hi (@NoneDelivered.earlier [_] _ hnone)).same rfl rfl id
    · intro pid call s' w hi _ ha hnone
      exact (hi (@NoneDelivered.earlier [_] _ hnone)).same rfl (accept_sameBehind ha).messages id
    · intro n w hi hnone
      exact ⟨(hi hnone).status, (hi hnone).stored, (hi hnone).found⟩
  exact preserved_run hpreserves (fun _ => ⟨by simp [ReadIn], by simp, trivial⟩) moves h

/-! ### Counting broadcasts -/

theorem countP_le_one {α : Type} {p : α → Bool} {l : List α}
    (h : ∀ front a back, l = front ++ a :: back → p a = true → ∀ b ∈ back, p b = false) :
    l.countP p ≤ 1 := by
  induction l with
  | nil => simp
  | cons a l ih =>
    by_cases ha : p a = true
    · have hrest : l.countP p = 0 := by
        refine List.countP_eq_zero.mpr fun b hb => ?_
        rw [h [] a l rfl ha b hb]
        exact Bool.false_ne_true
      rw [List.countP_cons_of_pos ha, hrest]
    · rw [List.countP_cons_of_neg ha]
      exact ih fun front b back hl => h (a :: front) b back (by rw [hl]; rfl)

theorem eq_of_countP_le_one {α : Type} {p : α → Bool} {l : List α} (h : l.countP p ≤ 1) {a b : α}
    (ha : a ∈ l) (hb : b ∈ l) (hpa : p a = true) (hpb : p b = true) : a = b := by
  rw [List.countP_eq_length_filter] at h
  have hma := List.mem_filter.mpr ⟨ha, hpa⟩
  have hmb := List.mem_filter.mpr ⟨hb, hpb⟩
  generalize l.filter p = found at *
  match found, h with
  | [x], _ => rw [List.mem_singleton.mp hma, List.mem_singleton.mp hmb]

section
variable {c : Config chatInterface Server Failure Call Response} {s : Server} {id : ObjectId}

/-- An undisturbed update lists only what is not yet `read`. -/
theorem Marked.unread (hm : Marked s c.world) (hb : Behaved c) (hnot : ¬ Disturbed c.world.log)
    {pid : Nat} {ids : List ObjectId} {now : Nat} {later earlier : Log}
    (hlog : c.world.log = later ++ .answered pid (.messageUpdateMany ids now) (.ok ()) :: earlier)
    (hid : id ∈ ids) : statusOf id s ≠ some .read ∧ ¬ ReadIn id earlier := by
  obtain ⟨spelling, reader, upTo, _, _, _, _, _, _, hdeeds⟩ := hb.updated hlog
  have hfound : .answered (.messageFindUnread spelling reader upTo) (.ok ids) ∈ deeds pid earlier := by
    rw [hdeeds]
    exact .tail _ (.head _)
  obtain ⟨between, older, rfl⟩ := List.append_of_mem (mem_deeds_answered.mp hfound)
  have hall := hm.found
  rw [hlog, List.append_cons, ← List.append_assoc] at hall
  obtain ⟨hunread, hnone⟩ := hall.at.1 id hid
  refine ⟨hunread, fun hread => ?_⟩
  obtain ⟨pid', ids', now', hid', hmem⟩ := hread
  rcases List.mem_append.mp hmem with hmem | hmem
  · refine hnot ⟨pid, ids, now, spelling, reader, upTo, later, between, older, ?_, id, hid,
      pid', ids', now', hid', hmem⟩
    rw [hlog, List.append_assoc]
    rfl
  · exact hnone ⟨pid', ids', now', hid', (List.mem_cons.mp hmem).resolve_left nofun⟩

/-- The update that a broadcast follows. -/
theorem Behaved.updates_first (hb : Behaved c) {e : Event chatInterface Failure Call} {later earlier : Log}
    (hlog : c.world.log = later ++ e :: earlier) (he : Broadcasts id e = true) :
    ∃ ids now, id ∈ ids ∧ .answered e.pid (.messageUpdateMany ids now) (.ok ()) ∈ earlier := by
  obtain ⟨pid, room, spelling, ids, userId, receivers, now, rest, rfl, hid, hdeeds, _⟩ :=
    hb.broadcast hlog he
  refine ⟨ids, now, hid, mem_deeds_answered.mp ?_⟩
  show _ ∈ deeds pid earlier
  rw [hdeeds]
  exact .head _

/-- A task broadcasts once. -/
theorem Behaved.broadcasts_once (hb : Behaved c) {e e' : Event chatInterface Failure Call}
    {later earlier : Log} (hlog : c.world.log = later ++ e :: earlier) (he : Broadcasts id e = true)
    (he' : Broadcasts id e' = true) (hmem : e' ∈ earlier) : e'.pid ≠ e.pid := by
  intro hpid
  obtain ⟨between, older, hsplit⟩ := List.append_of_mem hmem
  have hlog' : c.world.log = (later ++ e :: between) ++ e' :: older := by
    rw [hlog, hsplit, List.append_assoc]
    rfl
  obtain ⟨pid', room', spelling', ids', userId', receivers', _, _, rfl, _⟩ := hb.broadcast hlog' he'
  obtain ⟨pid, room, spelling, ids, userId, receivers, now, rest, rfl, _, hdeeds, hnone⟩ :=
    hb.broadcast hlog he
  have hemit := mem_deeds_acted.mpr hmem
  rw [show pid' = pid from hpid, hdeeds] at hemit
  exact hnone _ _ _ ((List.mem_cons.mp hemit).resolve_left nofun)

/-- Undisturbed, no message is listed by two broadcasts. -/
theorem Marked.countP_le_one (hm : Marked s c.world) (hb : Behaved c)
    (hnot : ¬ Disturbed c.world.log) : c.world.log.countP (Broadcasts id) ≤ 1 := by
  apply RealtimeChat.countP_le_one
  intro later e earlier hlog he e' hmem
  by_contra he'
  rw [Bool.not_eq_false] at he'
  obtain ⟨between, older, hsplit⟩ := List.append_of_mem hmem
  obtain ⟨ids, now, hid, hupdate⟩ := hb.updates_first hlog he
  have hlog' : c.world.log = (later ++ e :: between) ++ e' :: older := by
    rw [hlog, hsplit, List.append_assoc]
    rfl
  obtain ⟨ids', now', hid', hupdate'⟩ := hb.updates_first hlog' he'
  have hpid := hb.broadcasts_once hlog he he' hmem
  have hmem' : .answered e'.pid (.messageUpdateMany ids' now') (.ok ()) ∈ c.world.log := by
    rw [hlog']
    exact List.mem_append_right _ (.tail _ hupdate')
  -- Of two updates that list the message, the later one has been disturbed.
  have hmemu : .answered e.pid (.messageUpdateMany ids now) (.ok ()) ∈ c.world.log := by
    rw [hlog]
    exact List.mem_append_right _ (.tail _ hupdate)
  obtain ⟨front, back, hu⟩ := List.append_of_mem hmemu
  rw [hu] at hmem'
  rcases List.mem_append.mp hmem' with hlater | hbefore
  · obtain ⟨front', between', rfl⟩ := List.append_of_mem hlater
    rw [List.append_assoc] at hu
    refine (hm.unread hb hnot hu hid').2 ⟨e.pid, ids, now, hid, ?_⟩
    exact List.mem_append_right _ (.head _)
  · rcases List.mem_cons.mp hbefore with heq | hbefore
    · injection heq with heq
      exact hpid heq
    · exact (hm.unread hb hnot hu hid).2 ⟨e'.pid, ids', now', hid', hbefore⟩

end

/-- At rest, every update has been broadcast. -/
theorem emitted_at_rest {D : Deployment} {s : Server} {moves : List (Move Call)} (hdone : ∀ entry ∈
      ((chat D).run (Config.start s) moves).tasks, entry.task.isDone = true) {pid : Nat}
    {ids : List ObjectId} {now : Nat} (h : .answered pid (.messageUpdateMany ids now) (.ok ()) ∈
      ((chat D).run (Config.start s) moves).world.log) :
    ∃ room spelling userId receivers, .acted pid (.emit room (.messageRead spelling ids userId))
      receivers ∈ ((chat D).run (Config.start s) moves).world.log := by
  have hreports := (Obedient.start s).run (chat D) (body_reports D) moves
  generalize (chat D).run (Config.start s) moves = c at *
  obtain ⟨later, earlier, hlog⟩ := List.append_of_mem h
  obtain ⟨call, task, hentry, hlaw⟩ := hreports.law hlog rfl
  obtain ⟨socket, args, id, rfl⟩ := Call.asks_update (Call.law_asks hlaw)
  obtain ⟨_, hreported⟩ := hreports.ended hentry (hdone _ (List.mem_of_getElem? hentry))
  obtain ⟨room, spelling, receivers, hemit⟩ := hreported ids now (mem_deeds_answered.mpr h)
  exact ⟨room, spelling, socket.userId, receivers, mem_deeds_acted.mp hemit⟩

section
variable {D : Deployment} {s : Server} {moves : List (Move Call)}

/-- A message over which an update was disturbed is listed by two broadcasts. -/
theorem Disturbed.countP_ne_one
    (hnone : NoneDelivered ((chat D).run (Config.start s) moves).world.log)
    (hdone : ∀ entry ∈ ((chat D).run (Config.start s) moves).tasks, entry.task.isDone = true)
    (h : Disturbed ((chat D).run (Config.start s) moves).world.log) :
    ∃ id, statusOf id s ≠ some .read ∧
      statusOf id ((chat D).run (Config.start s) moves).world.state = some .read ∧
      ((chat D).run (Config.start s) moves).world.log.countP (Broadcasts id) ≠ 1 := by
  have hm := run_marked D s moves hnone
  obtain ⟨pid, ids, now, spelling, reader, upTo, later, between, earlier, hlog, id, hid, pid', ids',
    now', hid', hmem⟩ := h
  rw [List.append_assoc, List.cons_append] at hlog
  obtain ⟨_, _, _, _, _, _, _, _, _, hdeeds⟩ := (behaved_run D s moves).updated hlog
  have hupdate : .answered pid (.messageUpdateMany ids now) (.ok ()) ∈
      ((chat D).run (Config.start s) moves).world.log := by
    rw [hlog]
    exact List.mem_append_right later (.head _)
  have hupdate' : .answered pid' (.messageUpdateMany ids' now') (.ok ()) ∈
      ((chat D).run (Config.start s) moves).world.log := by
    rw [hlog]
    exact List.mem_append_right later (.tail _ (List.mem_append_left _ hmem))
  have hunread : statusOf id s ≠ some .read := by
    have hall := hm.found
    rw [hlog, List.append_cons, ← List.append_assoc] at hall
    exact (hall.at.1 id hid).1
  refine ⟨id, hunread, (hm.status id).mpr (.inr ⟨pid, ids, now, hid, hupdate⟩), fun hcount => ?_⟩
  -- Both calls have broadcast the message.
  obtain ⟨room, c, u, receivers, hemit⟩ := emitted_at_rest hdone hupdate
  obtain ⟨room', c', u', receivers', hemit'⟩ := emitted_at_rest hdone hupdate'
  have hsame := eq_of_countP_le_one (Nat.le_of_eq hcount) hemit hemit'
    (List.contains_iff_mem.mpr hid) (List.contains_iff_mem.mpr hid')
  injection hsame with hpid
  subst hpid
  have hdeed := mem_deeds_answered.mpr (List.mem_append_left
    (.answered pid (.messageFindUnread spelling reader upTo) (.ok ids) :: earlier) hmem)
  rw [hdeeds] at hdeed
  simp at hdeed

/-- An undisturbed update has changed every message that it lists. -/
theorem changedBy_of_update
    (hnone : NoneDelivered ((chat D).run (Config.start s) moves).world.log)
    (hnot : ¬ Disturbed ((chat D).run (Config.start s) moves).world.log) {pid : Nat}
    {ids : List ObjectId} {now : Nat} {later earlier : Log}
    (hlog : ((chat D).run (Config.start s) moves).world.log =
      later ++ .answered pid (.messageUpdateMany ids now) (.ok ()) :: earlier)
    {id : ObjectId} (hid : id ∈ ids) : ChangedBy D s moves pid id := by
  have hb := behaved_run D s moves
  obtain ⟨hunread, hunlisted⟩ := (run_marked D s moves hnone).unread hb hnot hlog hid
  obtain ⟨before, hprefix, hbefore, hanswer⟩ := (chat D).run_answer hlog
  have hmbefore := run_marked D s before (by
    rw [hbefore]
    exact @NoneDelivered.earlier [_] _ (hlog ▸ hnone).earlier)
  refine ⟨before, hprefix, ?_, ?_⟩
  · rw [ne_eq, hmbefore.status, hbefore, not_or]
    exact ⟨hunread, hunlisted⟩
  · obtain ⟨spelling, reader, upTo, _, _, _, _, _, _, hdeeds⟩ := hb.updated hlog
    have hfound : .answered pid (.messageFindUnread spelling reader upTo) (.ok ids) ∈
        ((chat D).run (Config.start s) before).world.log := by
      rw [hbefore, ← mem_deeds_answered]
      exact hdeeds ▸ .tail _ (.head _)
    have hmafter : Marked s ((chat D).respond pid (.messageUpdateMany ids now)
        ((chat D).run (Config.start s) before).world) :=
      hmbefore.update (hmbefore.stored pid spelling reader upTo ids hfound)
    have hstate : _ = ((chat D).run (Config.start s) (before ++ [.answer pid])).world.state :=
      congrArg Prod.snd hanswer
    rw [← hstate]
    exact (hmafter.status id).mpr (.inr ⟨pid, ids, now, hid, .head _⟩)

end

/-- **What is reported as read.** In any run of the server without `message:delivered`, from
any state, once no handler is in flight: every change to `read` has been broadcast once and
nothing else has, exactly if no update has been disturbed. -/
theorem reportedOnce_iff (D : Deployment) (s : Server) (moves : List (Move Call))
    (hnone : NoneDelivered ((chat D).run (Config.start s) moves).world.log)
    (hdone : ∀ entry ∈ ((chat D).run (Config.start s) moves).tasks, entry.task.isDone = true) :
    ReportedOnce D s moves ↔ ¬ Disturbed ((chat D).run (Config.start s) moves).world.log := by
  have hb := behaved_run D s moves
  have hm := run_marked D s moves hnone
  constructor
  · intro h hdisturbed
    obtain ⟨id, hunread, hread, hcount⟩ := hdisturbed.countP_ne_one hnone hdone
    exact hcount (h.once id hunread hread)
  · intro hnot
    refine ⟨fun id hunread hread => Nat.le_antisymm (hm.countP_le_one hb hnot) ?_, ?_⟩
    · obtain ⟨pid, ids, now, hid, hupdate⟩ := ((hm.status id).mp hread).resolve_left hunread
      obtain ⟨room, c, u, receivers, hemit⟩ := emitted_at_rest hdone hupdate
      exact List.countP_pos_iff.mpr ⟨_, hemit, List.contains_iff_mem.mpr hid⟩
    · intro pid room c ids u receivers hemit id hid
      obtain ⟨later, earlier, hlog⟩ := List.append_of_mem hemit
      obtain ⟨ids', now, hid', hupdate⟩ := hb.updates_first hlog (List.contains_iff_mem.mpr hid)
      obtain ⟨between, older, rfl⟩ := List.append_of_mem hupdate
      rw [List.append_cons, ← List.append_assoc] at hlog
      exact changedBy_of_update hnone hnot hlog hid'

/-! A message reported as read twice at once, as by two tabs of one client. -/

def readingServer : Server := connectSocket recipient receiptServer

def readsAll : Move Call :=
  .arrive (.event recipient .messageRead
    [.object [("conversationId", .string (ObjectId.ending 3).toString),
      ("upToMessageId", .string (ObjectId.ending 4).toString)], .function] (.ending 9))

def readsTwice : List (Move Call) :=
  [readsAll, readsAll, .answer 0, .resume 0, .answer 1, .resume 1, .answer 0, .resume 0, .answer 1,
    .resume 1, .answer 0, .resume 0, .answer 1, .resume 1, .answer 0, .resume 0, .answer 1, .resume 1]

def readsTwiceRun : Config chatInterface Server Failure Call Response :=
  (chat .default).run (Config.start readingServer) readsTwice

theorem readsTwice_noneDelivered : NoneDelivered readsTwiceRun.world.log := by
  intro pid socket args id h
  obtain ⟨args', hargs⟩ : ∃ args', arrivals readsTwiceRun.world.log =
      [.event recipient .messageRead args' (.ending 9),
        .event recipient .messageRead args' (.ending 9)] := ⟨_, rfl⟩
  have hmem := mem_arrivals h
  rw [hargs] at hmem
  simp at hmem

theorem reportedOnce_iff_twice : ReportedOnce .default readingServer readsTwice ↔
    ¬ Disturbed readsTwiceRun.world.log :=
  reportedOnce_iff .default readingServer readsTwice readsTwice_noneDelivered (by decide +kernel)

/-- Both calls are through, and both have broadcast the message. -/
theorem readsTwice_reports : (∀ entry ∈ readsTwiceRun.tasks, entry.task.isDone = true) ∧
    ¬ ReportedOnce .default readingServer readsTwice := by
  refine ⟨by decide +kernel, fun h => ?_⟩
  have hcount := h.once (.ending 4) (by decide +kernel) (by decide +kernel)
  revert hcount
  decide +kernel

end RealtimeChat
