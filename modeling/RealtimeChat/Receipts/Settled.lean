import RealtimeChat.Handlers.Receipts
import RealtimeChat.Messages.Sends
import RealtimeChat.Receipts.StatusOrder

/-! What the receipts of a run come to, once no handler is in flight.

The status of a message can be read off the log, as long as no save of it overtakes an
update (`status_settled`), and so can what has been broadcast of it: a message has been
reported read exactly if an update has listed it, and reported delivered exactly if
its status has changed at all (`readIn_told`, `savedIn_told`, `told_readIn`,
`told_savedIn`). -/
namespace RealtimeChat
open Data (Text Collection)
open Zod (Value)
open Async Async.System
open Server (MessagesAfter answer_messages)

/-- A save has set the message to `delivered`. -/
def SavedIn (id : ObjectId) (log : Log) : Prop :=
  ∃ pid now, .answered pid (.messageSave id .delivered now) (.ok ()) ∈ log

/-- A `markMessageDelivered` has loaded the message, a `markMessagesRead` has set it to
`read`, and after that the first has saved its copy. -/
def OvertakenAt (id : ObjectId) (log : Log) : Prop :=
  ∃ pid messageId m now later between earlier, m.id = id ∧
    log = later ++ .answered pid (.messageSave id .delivered now) (.ok ()) :: between ++
      .answered pid (.messageFindById messageId) (.ok (some m)) :: earlier ∧
    ReadIn id between

/-- Whatever a call has found is still stored. -/
structure Sighted (w : World chatInterface Server Failure Call) : Prop where
  found : ∀ pid messageId m, .answered pid (.messageFindById messageId) (.ok (some m)) ∈ w.log →
    Kept m w.state
  unread : ∀ pid spelling reader upTo ids,
    .answered pid (.messageFindUnread spelling reader upTo) (.ok ids) ∈ w.log → ∀ id ∈ ids,
      ∃ m, m.id = id ∧ Kept m w.state

/-- In a run from `s`: a status that a message did not have has come by a save or an update. -/
structure Caused (s : Server) (w : World chatInterface Server Failure Call) : Prop where
  read : ∀ id, statusOf id w.state = some .read → statusOf id s = some .read ∨ ReadIn id w.log
  delivered : ∀ id, statusOf id w.state = some .delivered →
    statusOf id s = some .delivered ∨ SavedIn id w.log

/-- A call that finds the message `sent` finds it before any update. -/
def FoundSent (id : ObjectId) (e : Event chatInterface Failure Call) (earlier : Log) : Prop :=
  ∀ pid messageId m, e = .answered pid (.messageFindById messageId) (.ok (some m)) → m.id = id →
    m.status = .sent → ¬ ReadIn id earlier

/-- A message that has been set to `read` is, and one that has been saved has moved on. -/
structure Upheld (id : ObjectId) (w : World chatInterface Server Failure Call) : Prop where
  read : ReadIn id w.log → statusOf id w.state = some .read
  saved : SavedIn id w.log →
    statusOf id w.state = some .delivered ∨ statusOf id w.state = some .read
  found : Each (FoundSent id) w.log

/-! ### One query -/

/-- What a query can do to the status of a message. -/
theorem Server.MessagesAfter.statusOf_cases {s : Server} {q : Query}
    {r : Except Failure q.Answer × Server} (h : MessagesAfter s q r) (id : ObjectId) :
    statusOf id r.2 = statusOf id s ∨ (statusOf id s = none ∧ statusOf id r.2 = some .sent) ∨
      (∃ status now, q = .messageSave id status now ∧ statusOf id r.2 = some status) ∨
      ∃ ids now, q = .messageUpdateMany ids now ∧ id ∈ ids ∧ statusOf id r.2 = some .read := by
  have hset : ∀ (p : Message → Bool) (status : MessageStatus) (now : Nat),
      r.2.messages = (s.setStatus p status now).messages → statusOf id r.2 = statusOf id s ∨
        ∃ m, m.id = id ∧ p m = true ∧ statusOf id r.2 = some status := by
    intro p status now hmessages
    rw [statusOf, hmessages, ← statusOf, statusOf_setStatus]
    cases hfind : s.messages.find id with
    | none => exact .inl (by rw [statusOf, hfind]; rfl)
    | some m =>
      by_cases hp : p m = true
      · exact .inr ⟨m, (Collection.find_eq_some.mp hfind).2, hp, by rw [Option.map_some, if_pos hp]⟩
      · exact .inl (by rw [statusOf, hfind, Option.map_some, if_neg hp]; rfl)
  cases h with
  | same h => exact .inl (by rw [statusOf, h, ← statusOf])
  | created hcast hanswer h =>
    rw [statusOf, Collection.find_insert h]
    split
    · rename_i hid
      refine .inr (.inl ⟨?_, rfl⟩)
      rw [statusOf, Option.map_eq_none_iff, Option.eq_none_iff_forall_ne_some]
      intro m hm
      obtain ⟨hmem, hkey⟩ := Collection.find_eq_some.mp hm
      exact (Collection.insert_eq_some h).2 m hmem (hkey.trans hid.symm)
    · exact .inl rfl
  | @saved id' status now _ h =>
    rcases hset _ _ _ h with hsame | ⟨m, hid, hp, hstatus⟩
    · exact .inl hsame
    · obtain rfl : id' = id := (beq_iff_eq.mp hp).symm.trans hid
      exact .inr (.inr (.inl ⟨status, now, rfl, hstatus⟩))
  | @updated ids now _ h =>
    rcases hset _ _ _ h with hsame | ⟨m, hid, hp, hstatus⟩
    · exact .inl hsame
    · exact .inr (.inr (.inr ⟨ids, now, rfl, hid ▸ List.contains_iff_mem.mp hp, hstatus⟩))

theorem Kept.statusOf_ne {m : Message} {s : Server} (h : Kept m s) : statusOf m.id s ≠ none := by
  obtain ⟨m', hm', hsame⟩ := h
  rw [statusOf, Collection.find_eq_some.mpr ⟨hm', hsame.id⟩]
  exact Option.some_ne_none _

/-- There is one message to an id, in one conversation. -/
theorem Kept.conversation {m m' : Message} {s : Server} (h : Kept m s) (h' : Kept m' s)
    (hid : m.id = m'.id) : m.conversationId = m'.conversationId := by
  obtain ⟨d, hsame, hsame'⟩ := h.common h' hid
  rw [← hsame.conversationId, hsame'.conversationId]

theorem messageFindById_kept {D : Deployment} {s : Server} {messageId : Text} {m : Message}
    (h : (Server.answer D (.messageFindById messageId) s).1 = .ok (some m)) : Kept m s := by
  simp only [Server.answer, Server.casting] at h
  split at h
  · exact ⟨m, (Collection.find_eq_some.mp (Except.ok.inj h)).1, .refl m⟩
  · cases h

theorem messageFindUnread_kept {D : Deployment} {s : Server} {spelling : Text} {reader : ObjectId}
    {upTo : Nat} {ids : List ObjectId}
    (h : (Server.answer D (.messageFindUnread spelling reader upTo) s).1 = .ok ids) {id : ObjectId}
    (hid : id ∈ ids) :
    ∃ m, m.id = id ∧ Kept m s := by
  simp only [Server.answer, Server.casting] at h
  split at h
  · obtain rfl := Except.ok.inj h
    obtain ⟨m, hm, rfl⟩ := List.mem_map.mp hid
    exact ⟨m, rfl, m, (List.mem_filter.mp hm).1, .refl m⟩
  · cases h

/-! ### Invariants -/

section
variable {D : Deployment} {s : Server} {w w' : World chatInterface Server Failure Call}

/-- An entry that has found no message. -/
theorem Sighted.same (hi : Sighted w) {e : Event chatInterface Failure Call} (hlog : w'.log = e :: w.log)
    (hs : w'.state.messages = w.state.messages) (he : ¬ e.Succeeded) : Sighted w' := by
  refine ⟨fun pid messageId m hmem => ?_, fun pid spelling reader upTo ids hmem id hid => ?_⟩
  · rw [hlog] at hmem
    rw [Kept, hs]
    exact hi.found pid messageId m (Event.mem_of_succeeded hmem trivial he)
  · rw [hlog] at hmem
    have hold := Event.mem_of_succeeded hmem trivial he
    obtain ⟨m, hm, hkept⟩ := hi.unread pid spelling reader upTo ids hold id hid
    exact ⟨m, hm, by rw [Kept, hs]; exact hkept⟩

theorem Sighted.answer (hi : Sighted w) (pid : Nat) (q : Query) : Sighted ((chat D).respond pid q w) := by
  refine ⟨fun pid' messageId m hmem => ?_, fun pid' spelling reader upTo ids hmem id hid => ?_⟩
  · rcases List.mem_cons.mp hmem with heq | hmem
    · injection heq with _ hq hanswer
      subst hq
      exact (messageFindById_kept (D := D) (eq_of_heq hanswer).symm).answer _
    · exact (hi.found pid' messageId m hmem).answer q
  · rcases List.mem_cons.mp hmem with heq | hmem
    · injection heq with _ hq hanswer
      subst hq
      obtain ⟨m, hm, hkept⟩ := messageFindUnread_kept (D := D) (eq_of_heq hanswer).symm hid
      exact ⟨m, hm, hkept.answer _⟩
    · obtain ⟨m, hm, hkept⟩ := hi.unread pid' spelling reader upTo ids hmem id hid
      exact ⟨m, hm, hkept.answer q⟩

theorem sighted_preserved (D : Deployment) : (chat D).Preserves Call.receipt Sighted where
  acts h _ _ := h.same rfl (Server.act_messages D _ _) id
  answers h _ _ := h.answer _ _
  rejects h _ _ := h.same rfl rfl id
  arrives h _ ha := h.same rfl (accept_sameBehind ha).messages id
  passes h := ⟨h.found, h.unread⟩

theorem ReadIn.cons {id : ObjectId} {log : Log} (e : Event chatInterface Failure Call)
    (h : ReadIn id log) : ReadIn id (e :: log) := by
  obtain ⟨pid, ids, now, hid, hmem⟩ := h
  exact ⟨pid, ids, now, hid, .tail _ hmem⟩

theorem SavedIn.cons {id : ObjectId} {log : Log} (e : Event chatInterface Failure Call)
    (h : SavedIn id log) : SavedIn id (e :: log) := by
  obtain ⟨pid, now, hmem⟩ := h
  exact ⟨pid, now, .tail _ hmem⟩

theorem Caused.same (hi : Caused s w) {e : Event chatInterface Failure Call} (hlog : w'.log = e :: w.log)
    (hs : w'.state.messages = w.state.messages) : Caused s w' := by
  have hstatus : ∀ id, statusOf id w'.state = statusOf id w.state := fun id => by
    rw [statusOf, hs, ← statusOf]
  refine ⟨fun id h => ?_, fun id h => ?_⟩ <;> rw [hstatus] at h <;> rw [hlog]
  · exact (hi.read id h).imp_right (.cons e)
  · exact (hi.delivered id h).imp_right (.cons e)

/-- Whose calls save a message: those that mark it as delivered. -/
theorem Call.receipt_save {call : Call} {before : Deeds} {id : ObjectId} {status : MessageStatus}
    {now : Nat} {r : Except Failure Unit}
    (h : call.receipt before (.answered (.messageSave id status now) r)) :
    (∃ socket args k, call = .event socket .messageDelivered args k) ∧ ∃ messageId m,
      .answered (.messageFindById messageId) (.ok (some m)) ∈ before ∧ m.status = .sent ∧ id = m.id ∧
        status = .delivered := by
  cases call with
  | event socket name args k =>
    cases name with
    | messageDelivered => exact ⟨⟨socket, args, k, rfl⟩, h⟩
    | _ => exact h.elim
  | _ => exact h.elim

/-- Whose calls set messages to `read`: those that have found them unread under the name
that they are given. -/
theorem Call.receipt_update {call : Call} {before : Deeds} {ids : List ObjectId} {now : Nat}
    {r : Except Failure Unit} (h : call.receipt before (.answered (.messageUpdateMany ids now) r)) :
    ∃ socket args k input reader upTo, call = .event socket .messageRead args k ∧
      messageReadSchema.parse (args.getD 0 .undefined) = .ok input ∧
      .answered (.messageFindUnread input.conversationId reader upTo) (.ok ids) ∈ before := by
  cases call with
  | event socket name args k =>
    cases name with
    | messageRead =>
      obtain ⟨input, reader, upTo, hparse, hfound⟩ := h
      exact ⟨socket, args, k, input, reader, upTo, rfl, hparse, hfound⟩
    | _ => exact h.elim
  | _ => exact h.elim

theorem caused_preserved (D : Deployment) (s : Server) : (chat D).Preserves Call.receipt (Caused s) where
  acts h _ _ := h.same rfl (Server.act_messages D _ _)
  rejects h _ _ := h.same rfl rfl
  arrives h _ ha := h.same rfl (accept_sameBehind ha).messages
  passes h := ⟨h.read, h.delivered⟩
  answers := by
    intro pid call q w h _ hlaw
    have hcases := (answer_messages D q w.state).statusOf_cases
    refine ⟨fun id hread => ?_, fun id hdelivered => ?_⟩
    · replace hread : statusOf id (Server.answer D q w.state).2 = some .read := hread
      rcases hcases id with hsame | ⟨_, hsent⟩ | ⟨status, now, rfl, hsave⟩ | ⟨ids, now, rfl, hid, hupdate⟩
      · exact (h.read id (hsame ▸ hread)).imp_right (.cons _)
      · rw [hsent] at hread
        cases hread
      · obtain ⟨_, _, _, _, _, _, rfl⟩ := Call.receipt_save hlaw
        rw [hsave] at hread
        cases hread
      · exact .inr ⟨pid, ids, now, hid, .head _⟩
    · replace hdelivered : statusOf id (Server.answer D q w.state).2 = some .delivered := hdelivered
      rcases hcases id with hsame | ⟨_, hsent⟩ | ⟨status, now, rfl, hsave⟩ | ⟨ids, now, rfl, hid, hupdate⟩
      · exact (h.delivered id (hsame ▸ hdelivered)).imp_right (.cons _)
      · rw [hsent] at hdelivered
        cases hdelivered
      · obtain ⟨_, _, _, _, _, _, rfl⟩ := Call.receipt_save hlaw
        exact .inr ⟨pid, now, .head _⟩
      · rw [hupdate] at hdelivered
        cases hdelivered

/-- An entry that answers nothing. -/
theorem Upheld.same {id : ObjectId} (hi : Upheld id w) {e : Event chatInterface Failure Call}
    (hlog : w'.log = e :: w.log) (hs : w'.state.messages = w.state.messages) (he : ¬ e.Succeeded) :
    Upheld id w' := by
  have hstatus : statusOf id w'.state = statusOf id w.state := by rw [statusOf, hs, ← statusOf]
  refine ⟨fun h => ?_, fun h => ?_, ?_⟩
  · obtain ⟨pid, ids, now, hid, hmem⟩ := h
    rw [hlog] at hmem
    rw [hstatus]
    exact hi.read ⟨pid, ids, now, hid, Event.mem_of_succeeded hmem trivial he⟩
  · obtain ⟨pid, now, hmem⟩ := h
    rw [hlog] at hmem
    rw [hstatus]
    exact hi.saved ⟨pid, now, Event.mem_of_succeeded hmem trivial he⟩
  · rw [hlog]
    refine ⟨fun pid messageId m heq => absurd ?_ he, hi.found⟩
    rw [heq]
    trivial

theorem OvertakenAt.cons {id : ObjectId} {log : Log} (e : Event chatInterface Failure Call)
    (h : OvertakenAt id log) : OvertakenAt id (e :: log) := by
  obtain ⟨pid, messageId, m, now, later, between, earlier, hid, rfl, hread⟩ := h
  exact ⟨pid, messageId, m, now, e :: later, between, earlier, hid, rfl, hread⟩

theorem OvertakenAt.savedIn {id : ObjectId} {log : Log} (h : OvertakenAt id log) : SavedIn id log := by
  obtain ⟨pid, messageId, m, now, later, between, earlier, _, rfl, _⟩ := h
  refine ⟨pid, now, ?_⟩
  rw [List.append_assoc]
  exact List.mem_append_right later (.head _)

/-- A save that comes after an update has overtaken it. -/
theorem Upheld.not_readIn {id : ObjectId} (hi : Upheld id w) {pid : Nat} {messageId : Text} {m : Message}
    {now : Nat} (hfound : .answered pid (.messageFindById messageId) (.ok (some m)) ∈ w.log)
    (hid : m.id = id) (hsent : m.status = .sent)
    (hnot : ¬ OvertakenAt id (.answered pid (.messageSave id .delivered now) (.ok ()) :: w.log)) :
    ¬ ReadIn id w.log := by
  intro hread
  obtain ⟨between, earlier, hlog⟩ := List.append_of_mem hfound
  have hall := hi.found
  rw [hlog] at hall
  have hbefore : ¬ ReadIn id earlier := hall.at.1 pid messageId m rfl hid hsent
  obtain ⟨pid', ids, now', hid', hmem⟩ := hread
  rw [hlog] at hmem
  rcases List.mem_append.mp hmem with hmem | hmem
  · exact hnot ⟨pid, messageId, m, now, [], between, earlier, hid, by rw [hlog]; rfl,
      pid', ids, now', hid', hmem⟩
  · exact hbefore ⟨pid', ids, now', hid', (List.mem_cons.mp hmem).resolve_left nofun⟩

theorem Upheld.answer {id : ObjectId} (hi : Upheld id w) (hs : Sighted w) {pid : Nat} {call : Call}
    {q : Query} (hlaw : call.receipt (deeds pid w.log) (.answered q (Server.answer D q w.state).1))
    (hnot : ¬ OvertakenAt id ((chat D).respond pid q w).log) : Upheld id ((chat D).respond pid q w) := by
  have hcases := (answer_messages D q w.state).statusOf_cases id
  refine ⟨fun h => ?_, fun h => ?_, ?_, hi.found⟩
  · show statusOf id (Server.answer D q w.state).2 = some .read
    by_cases hread : ReadIn id w.log
    · have hold := hi.read hread
      rcases hcases with hsame | ⟨hnone, _⟩ | ⟨status, now, rfl, _⟩ | ⟨ids, now, rfl, _, hupdate⟩
      · rw [hsame, hold]
      · rw [hnone] at hold
        cases hold
      · obtain ⟨_, messageId, m, hfound, hsent, rfl, rfl⟩ := Call.receipt_save hlaw
        exact absurd hread (hi.not_readIn (mem_deeds_answered.mp hfound) rfl hsent hnot)
      · exact hupdate
    · -- It is this answer that sets it to `read`.
      obtain ⟨pid', ids, now, hid, hmem⟩ := h
      rcases List.mem_cons.mp hmem with heq | hmem
      · injection heq with _ hq
        subst hq
        obtain ⟨_, _, _, input, reader, upTo, _, _, hfound⟩ := Call.receipt_update hlaw
        obtain ⟨m, rfl, hkept⟩ := hs.unread pid _ _ _ ids (mem_deeds_answered.mp hfound) id hid
        obtain ⟨old, hold⟩ := Option.ne_none_iff_exists'.mp hkept.statusOf_ne
        exact statusOf_updateMany D (s := w.state) rfl hid hold
      · exact absurd ⟨pid', ids, now, hid, hmem⟩ hread
  · show statusOf id (Server.answer D q w.state).2 = some .delivered ∨
      statusOf id (Server.answer D q w.state).2 = some .read
    by_cases hsaved : SavedIn id w.log
    · have hold := hi.saved hsaved
      rcases hcases with hsame | ⟨hnone, _⟩ | ⟨status, now, rfl, hsave⟩ | ⟨ids, now, rfl, _, hupdate⟩
      · rw [hsame]
        exact hold
      · rw [hnone] at hold
        rcases hold with hold | hold <;> cases hold
      · obtain ⟨_, _, _, _, _, _, rfl⟩ := Call.receipt_save hlaw
        exact .inl hsave
      · exact .inr hupdate
    · obtain ⟨pid', now, hmem⟩ := h
      rcases List.mem_cons.mp hmem with heq | hmem
      · injection heq with _ hq
        subst hq
        obtain ⟨_, messageId, m, hfound, _, rfl, _⟩ := Call.receipt_save hlaw
        obtain ⟨old, hold⟩ := Option.ne_none_iff_exists'.mp
          (hs.found pid messageId m (mem_deeds_answered.mp hfound)).statusOf_ne
        exact .inl (statusOf_save D (s := w.state) rfl hold)
      · exact absurd ⟨pid', now, hmem⟩ hsaved
  · intro pid' messageId m heq hid hsent hread
    injection heq with _ hq hanswer
    subst hq
    have hstatus := find_answer D (eq_of_heq hanswer)
    rw [hid, hsent, hi.read hread] at hstatus
    cases hstatus

theorem upheld_preserved (D : Deployment) (k : ObjectId) : (chat D).Preserves Call.receipt fun w =>
    Sighted w ∧ (¬ OvertakenAt k w.log → Upheld k w) where
  acts h harrived hlaw := ⟨(sighted_preserved D).acts h.1 harrived hlaw, fun hnot =>
    (h.2 fun h' => hnot (h'.cons _)).same rfl (Server.act_messages D _ _) id⟩
  answers h _ hlaw := ⟨h.1.answer _ _, fun hnot =>
    (h.2 fun h' => hnot (h'.cons _)).answer h.1 hlaw hnot⟩
  rejects h harrived hlaw := ⟨(sighted_preserved D).rejects h.1 harrived hlaw, fun hnot =>
    (h.2 fun h' => hnot (h'.cons _)).same rfl rfl id⟩
  arrives h hfresh ha := ⟨(sighted_preserved D).arrives h.1 hfresh ha, fun hnot =>
    (h.2 fun h' => hnot (h'.cons _)).same rfl (accept_sameBehind ha).messages id⟩
  passes h := ⟨⟨h.1.found, h.1.unread⟩, fun hnot => ⟨(h.2 hnot).read, (h.2 hnot).saved, (h.2 hnot).found⟩⟩

end

/-! ### Every run -/

section
variable (D : Deployment) (s : Server) (moves : List (Move Call))

theorem sighted_run : Sighted ((chat D).run (Config.start s) moves).world :=
  (sighted_preserved D).run (body_told D) (Obedient.start s)
    ⟨by simp [Config.start], by simp [Config.start]⟩ moves

theorem caused_run : Caused s ((chat D).run (Config.start s) moves).world :=
  (caused_preserved D s).run (body_told D) (Obedient.start s)
    ⟨fun _ h => .inl h, fun _ h => .inl h⟩ moves

/-- As long as no save of the message overtakes an update, what was set of it holds. -/
theorem upheld_run {id : ObjectId}
    (hnot : ¬ OvertakenAt id ((chat D).run (Config.start s) moves).world.log) :
    Upheld id ((chat D).run (Config.start s) moves).world := by
  refine ((upheld_preserved D id).run (body_told D) (Obedient.start s) ⟨?_, fun _ => ?_⟩ moves).2 hnot
  · exact ⟨by simp [Config.start], by simp [Config.start]⟩
  · exact ⟨by simp [Config.start, ReadIn], by simp [Config.start, SavedIn], trivial⟩

variable {D s moves} {id : ObjectId}

/-- **The status of a message sent in the run**, read off the log. -/
theorem status_settled (hnot : ¬ OvertakenAt id ((chat D).run (Config.start s) moves).world.log)
    (hnew : statusOf id s = none) {status : MessageStatus}
    (h : statusOf id ((chat D).run (Config.start s) moves).world.state = some status) :
    (status = .read ↔ ReadIn id ((chat D).run (Config.start s) moves).world.log) ∧
      (status = .delivered → SavedIn id ((chat D).run (Config.start s) moves).world.log) ∧
      (SavedIn id ((chat D).run (Config.start s) moves).world.log → status ≠ .sent) := by
  have hcaused := caused_run D s moves
  have hupheld := upheld_run D s moves hnot
  refine ⟨⟨fun hread => ?_, fun hread => ?_⟩, fun hdelivered => ?_, fun hsaved hsent => ?_⟩
  · refine (hcaused.read id (hread ▸ h)).resolve_left fun hold => ?_
    rw [hnew] at hold
    cases hold
  · exact Option.some.inj (h.symm.trans (hupheld.read hread))
  · refine (hcaused.delivered id (hdelivered ▸ h)).resolve_left fun hold => ?_
    rw [hnew] at hold
    cases hold
  · rw [hsent] at h
    rcases hupheld.saved hsaved with hstatus | hstatus <;> rw [h] at hstatus <;> cases hstatus

/-! ### What has been broadcast -/

/-- A message set to `read` is broadcast by the time that nothing is in flight, to the room
that the request has named. -/
theorem readIn_told (hdone : ∀ entry ∈ ((chat D).run (Config.start s) moves).tasks,
      entry.task.isDone = true) (h : ReadIn id ((chat D).run (Config.start s) moves).world.log) :
    ∃ pid socket args k input ids userId receivers,
      .arrived pid (.event socket .messageRead args k) ∈
        ((chat D).run (Config.start s) moves).world.log ∧
      messageReadSchema.parse (args.getD 0 .undefined) = .ok input ∧
      .acted pid (.emit input.conversationId (.messageRead input.conversationId ids userId)) receivers ∈
        ((chat D).run (Config.start s) moves).world.log ∧ id ∈ ids := by
  have htelling := telling_run D s moves
  generalize (chat D).run (Config.start s) moves = c at *
  obtain ⟨pid, ids, now, hid, hmem⟩ := h
  obtain ⟨later, earlier, hlog⟩ := List.append_of_mem hmem
  obtain ⟨call, task, hentry, hlaw⟩ := htelling.law hlog rfl
  obtain ⟨socket, args, k, input, _, _, rfl, hparse, _⟩ := Call.receipt_update hlaw
  obtain ⟨_, htold⟩ := htelling.ended hentry (hdone _ (List.mem_of_getElem? hentry))
  obtain ⟨input', receivers, hparse', hemit⟩ := htold ids now (mem_deeds_answered.mpr hmem)
  rw [hparse] at hparse'
  cases hparse'
  exact ⟨pid, socket, args, k, input, ids, socket.userId, receivers, htelling.arrived pid _ hentry,
    hparse, mem_deeds_acted.mp hemit, hid⟩

/-- Without `message:delivered`, nothing is saved. -/
theorem SavedIn.arrived (h : SavedIn id ((chat D).run (Config.start s) moves).world.log) :
    ∃ pid socket args k, .arrived pid (.event socket .messageDelivered args k) ∈
      ((chat D).run (Config.start s) moves).world.log := by
  have htelling := telling_run D s moves
  obtain ⟨pid, now, hmem⟩ := h
  obtain ⟨later, earlier, hlog⟩ := List.append_of_mem hmem
  obtain ⟨call, task, hentry, hlaw⟩ := htelling.law hlog rfl
  obtain ⟨⟨socket, args, k, rfl⟩, _⟩ := Call.receipt_save hlaw
  exact ⟨pid, socket, args, k, htelling.arrived pid _ hentry⟩

/-- A message saved as `delivered` is broadcast by then, to the room of its conversation. -/
theorem savedIn_told (hdone : ∀ entry ∈ ((chat D).run (Config.start s) moves).tasks,
      entry.task.isDone = true) (h : SavedIn id ((chat D).run (Config.start s) moves).world.log) :
    ∃ pid userId receivers m, .acted pid (.emit m.conversationId.toString
        (.messageDelivered id m.conversationId.toString userId)) receivers ∈
        ((chat D).run (Config.start s) moves).world.log ∧ m.id = id ∧
      Kept m ((chat D).run (Config.start s) moves).world.state := by
  have htelling := telling_run D s moves
  have hsighted := sighted_run D s moves
  generalize (chat D).run (Config.start s) moves = c at *
  obtain ⟨pid, now, hmem⟩ := h
  obtain ⟨later, earlier, hlog⟩ := List.append_of_mem hmem
  obtain ⟨call, task, hentry, hlaw⟩ := htelling.law hlog rfl
  obtain ⟨⟨socket, args, k, rfl⟩, _⟩ := Call.receipt_save hlaw
  obtain ⟨_, htold⟩ := htelling.ended hentry (hdone _ (List.mem_of_getElem? hentry))
  obtain ⟨messageId, m, receivers, hfound, hid, hemit⟩ :=
    htold id .delivered now (mem_deeds_answered.mpr hmem)
  exact ⟨pid, socket.userId, receivers, m, mem_deeds_acted.mp hemit, hid,
    hsighted.found pid messageId m (mem_deeds_answered.mp hfound)⟩

/-- What is broadcast as read has been set to it. -/
theorem told_readIn {pid : Nat} {room spelling : Text} {ids : List ObjectId} {userId : ObjectId}
    {receivers : List Socket} (h : .acted pid (.emit room (.messageRead spelling ids userId)) receivers ∈
      ((chat D).run (Config.start s) moves).world.log) (hid : id ∈ ids) :
    ReadIn id ((chat D).run (Config.start s) moves).world.log := by
  have htelling := telling_run D s moves
  generalize (chat D).run (Config.start s) moves = c at *
  obtain ⟨later, earlier, hlog⟩ := List.append_of_mem h
  obtain ⟨call, task, _, hlaw⟩ := htelling.law hlog rfl
  cases call with
  | event socket name args k =>
    cases name with
    | messageRead =>
      obtain ⟨input, ids', now, _, _, hevent, hupdate⟩ := hlaw
      cases hevent
      refine ⟨pid, ids, now, hid, ?_⟩
      rw [hlog]
      exact List.mem_append_right _ (.tail _ (mem_deeds_answered.mp hupdate))
    | messageDelivered =>
      obtain ⟨_, _, _, _, hevent, _⟩ := hlaw
      cases hevent
    | _ => exact hlaw.elim
  | _ => exact hlaw.elim

/-- What is broadcast as delivered has been found by the call, which has saved it if it was
`sent`. -/
theorem told_found {pid : Nat} {room spelling : Text} {userId : ObjectId} {receivers : List Socket}
    {later earlier : Log} (hlog : ((chat D).run (Config.start s) moves).world.log = later ++
      .acted pid (.emit room (.messageDelivered id spelling userId)) receivers :: earlier) :
    ∃ messageId m, .answered pid (.messageFindById messageId) (.ok (some m)) ∈ earlier ∧ m.id = id ∧
      (m.status = .sent → SavedIn id earlier) := by
  obtain ⟨call, task, _, hlaw⟩ := (telling_run D s moves).law hlog rfl
  cases call with
  | event socket name args k =>
    cases name with
    | messageDelivered =>
      obtain ⟨messageId, m, hfound, _, hevent, hsent⟩ := hlaw
      cases hevent
      refine ⟨messageId, m, mem_deeds_answered.mp hfound, rfl, fun h => ?_⟩
      obtain ⟨now, hsaved⟩ := hsent h
      exact ⟨pid, now, mem_deeds_answered.mp hsaved⟩
    | messageRead =>
      obtain ⟨_, _, _, _, _, hevent, _⟩ := hlaw
      cases hevent
    | _ => exact hlaw.elim
  | _ => exact hlaw.elim

/-- It has been saved as that, unless an update had come first. -/
theorem told_savedIn {pid : Nat} {room spelling : Text} {userId : ObjectId} {receivers : List Socket}
    (h : .acted pid (.emit room (.messageDelivered id spelling userId)) receivers ∈
      ((chat D).run (Config.start s) moves).world.log) (hnew : statusOf id s = none) :
    SavedIn id ((chat D).run (Config.start s) moves).world.log ∨
      ReadIn id ((chat D).run (Config.start s) moves).world.log := by
  obtain ⟨later, earlier, hlog⟩ := List.append_of_mem h
  have hearlier : ∀ {e}, e ∈ earlier → e ∈ ((chat D).run (Config.start s) moves).world.log := by
    intro e he
    rw [hlog]
    exact List.mem_append_right _ (.tail _ he)
  obtain ⟨messageId, m, hfound, rfl, hsent⟩ := told_found hlog
  -- Unless the call has saved the message itself, it has found it changed.
  obtain ⟨between, older, hfind⟩ := List.append_of_mem (hearlier hfound)
  obtain ⟨before, _, holder, hanswer⟩ := (chat D).run_answer hfind
  have hstatus := find_answer D (Prod.mk.inj hanswer).1
  have hcaused := caused_run D s before
  have hall : ∀ {e}, e ∈ ((chat D).run (Config.start s) before).world.log →
      e ∈ ((chat D).run (Config.start s) moves).world.log := by
    intro e he
    rw [hfind]
    exact List.mem_append_right _ (.tail _ (holder ▸ he))
  cases hm : m.status with
  | sent =>
    obtain ⟨p, now, hsaved⟩ := hsent hm
    exact .inl ⟨p, now, hearlier hsaved⟩
  | delivered =>
    rw [hm] at hstatus
    obtain ⟨p, now, hsaved⟩ := (hcaused.delivered _ hstatus).resolve_left (by rw [hnew]; exact nofun)
    exact .inl ⟨p, now, hall hsaved⟩
  | read =>
    rw [hm] at hstatus
    obtain ⟨p, ids, now, hid, hread⟩ := (hcaused.read _ hstatus).resolve_left (by rw [hnew]; exact nofun)
    exact .inr ⟨p, ids, now, hid, hall hread⟩

end

end RealtimeChat
