import RealtimeChat.Async.Discipline
import RealtimeChat.Async.Trace
import RealtimeChat.Handlers.Footprint
import RealtimeChat.Model.Effects

/-! Whether the status of a message can move backwards.

`markMessageDelivered` looks at the copy it has loaded and saves it two awaits
later. If a `markMessagesRead` gets in between, the save puts `delivered` over
`read`. Nothing else can go wrong: statuses move forward throughout a run exactly
if no save overtakes an update in this way (`status_forward_iff`). -/
namespace RealtimeChat
open Data (Text)
open Zod (Value)
open Async Async.System
open Server (MessagesAfter answer_messages)

def statusOf (id : ObjectId) (s : Server) : Option MessageStatus :=
  (s.messages.find id).map Message.status

/-- No message is lost, and no status is lower than it was. -/
def Forward (s s' : Server) : Prop :=
  ∀ id status, statusOf id s = some status →
    ∃ status', statusOf id s' = some status' ∧ status.rank ≤ status'.rank

theorem Forward.refl (s : Server) : Forward s s := fun _ status h => ⟨status, h, Nat.le_refl _⟩

theorem Forward.trans {a b c : Server} (h : Forward a b) (h' : Forward b c) : Forward a c := by
  intro id status hs
  obtain ⟨middle, hm, hle⟩ := h id status hs
  obtain ⟨last, hl, hle'⟩ := h' id middle hm
  exact ⟨last, hl, Nat.le_trans hle hle'⟩

theorem Forward.of_messages {s s' : Server} (h : s'.messages = s.messages) : Forward s s' := by
  intro id status hs
  refine ⟨status, ?_, Nat.le_refl _⟩
  rw [statusOf, h]
  exact hs

/-- An `updateMany` to `read` that lists the message has been carried out. -/
def ReadIn (id : ObjectId) (log : Log) : Prop :=
  ∃ pid ids now, id ∈ ids ∧ .answered pid (.messageUpdateMany ids now) (.ok ()) ∈ log

/-- A `markMessageDelivered` has loaded a message, a `markMessagesRead` has set that
message to `read`, and after that the first has saved its copy. -/
def Overtaken (log : Log) : Prop :=
  ∃ pid messageId message now later between earlier,
    log = later ++ .answered pid (.messageSave message.id .delivered now) (.ok ()) :: between ++
      .answered pid (.messageFindById messageId) (.ok (some message)) :: earlier ∧
    ReadIn message.id between

/-! ### What one query does to the statuses -/

theorem statusOf_setStatus (s : Server) (p : Message → Bool) (status : MessageStatus) (now : Nat)
    (id : ObjectId) : statusOf id (s.setStatus p status now) =
      (s.messages.find id).map fun m => if p m then status else m.status := by
  simp only [statusOf, Server.setStatus, Data.Collection.find_modify, Option.map_map]
  congr 1
  funext m
  by_cases h : p m = true <;> simp [h]

theorem Forward.setStatus {s : Server} {p : Message → Bool} {status : MessageStatus}
    (h : ∀ m ∈ s.messages.docs, p m = true → m.status.rank ≤ status.rank) (now : Nat) :
    Forward s (s.setStatus p status now) := by
  intro id old hs
  obtain ⟨m, hm, rfl⟩ := Option.map_eq_some_iff.mp hs
  refine ⟨if p m then status else m.status, ?_, ?_⟩
  · rw [statusOf_setStatus, hm]
    rfl
  · by_cases hp : p m = true
    · rw [if_pos hp]
      exact h m (Data.Collection.find_eq_some.mp hm).1 hp
    · rw [if_neg hp]

theorem rank_le_read (status : MessageStatus) : status.rank ≤ MessageStatus.read.rank := by
  cases status <;> decide

/-- A query moves every status forward, if a document that it saves is not behind. -/
theorem Server.MessagesAfter.forward {s : Server} {q : Query}
    {r : Except Failure q.Answer × Server} (h : MessagesAfter s q r)
    (hsave : ∀ id status now, q = .messageSave id status now →
      ∀ old, statusOf id s = some old → old.rank ≤ status.rank) : Forward s r.2 := by
  cases h with
  | same h => exact .of_messages h
  | created hcast hanswer h =>
    intro id status hs
    refine ⟨status, ?_, Nat.le_refl _⟩
    obtain ⟨m, hm, rfl⟩ := Option.map_eq_some_iff.mp hs
    have hne := (Data.Collection.insert_eq_some h).2 m (Data.Collection.find_eq_some.mp hm).1
    rw [(Data.Collection.find_eq_some.mp hm).2] at hne
    rw [statusOf, Data.Collection.find_insert h, if_neg (Ne.symm hne), hm]
    rfl
  | @saved id status now _ h =>
    refine (Forward.setStatus (fun m hm hp => ?_) now).trans (.of_messages h)
    apply hsave id status now rfl m.status
    rw [statusOf, Data.Collection.find_eq_some.mpr ⟨hm, by simpa using hp⟩]
    rfl
  | updated h =>
    exact (Forward.setStatus (fun m _ _ => rank_le_read m.status) _).trans (.of_messages h)

/-- Only an `updateMany` that lists a message makes it `read`. -/
theorem Server.MessagesAfter.becomes_read {s : Server} {q : Query}
    {r : Except Failure q.Answer × Server} (h : MessagesAfter s q r)
    (hsave : ∀ id status now, q = .messageSave id status now → status ≠ .read) {id : ObjectId}
    (hs : statusOf id s ≠ some .read) (hs' : statusOf id r.2 = some .read) :
    ∃ ids now, q = .messageUpdateMany ids now ∧ id ∈ ids := by
  cases h with
  | same h =>
    rw [statusOf, h] at hs'
    exact absurd hs' hs
  | created hcast hanswer h =>
    rw [statusOf, Data.Collection.find_insert h] at hs'
    split at hs'
    · cases hs'
    · exact absurd hs' hs
  | @saved id' status now _ h =>
    rw [statusOf, h, ← statusOf, statusOf_setStatus] at hs'
    obtain ⟨m, hm, hread⟩ := Option.map_eq_some_iff.mp hs'
    split at hread
    · exact absurd hread (hsave id' status now rfl)
    · exact absurd (by rw [statusOf, hm, ← hread]; rfl) hs
  | @updated ids now _ h =>
    rw [statusOf, h, ← statusOf, statusOf_setStatus] at hs'
    obtain ⟨m, hm, hread⟩ := Option.map_eq_some_iff.mp hs'
    split at hread
    · rename_i hp
      rw [(Data.Collection.find_eq_some.mp hm).2, List.contains_iff_mem] at hp
      exact ⟨ids, now, rfl, hp⟩
    · exact absurd (by rw [statusOf, hm, ← hread]; rfl) hs

/-! ### No overtaking, no step back -/

/-- Statuses move forward, and nothing becomes `read` that no `updateMany` lists. -/
def receipts : Discipline chatInterface Server Failure Call where
  inv _ := True
  rel w w' := Forward w.state w'.state ∧ ∃ new, w'.log = new ++ w.log ∧
    ∀ id, statusOf id w.state ≠ some .read → statusOf id w'.state = some .read → ReadIn id new
  assume log := ¬ Overtaken log
  refl w := ⟨.refl _, [], rfl, fun _ h h' => absurd h' h⟩
  trans := by
    intro a b c hall hboth
    obtain ⟨hab, new, hnew, hread⟩ := hall
    obtain ⟨hbc, new', hnew', hread'⟩ := hboth
    refine ⟨hab.trans hbc, new' ++ new, by rw [hnew', hnew, List.append_assoc], fun id h h' => ?_⟩
    by_cases hb : statusOf id b.state = some .read
    · obtain ⟨pid, ids, now, hid, hmem⟩ := hread id h hb
      exact ⟨pid, ids, now, hid, List.mem_append_right _ hmem⟩
    · obtain ⟨pid, ids, now, hid, hmem⟩ := hread' id hb h'
      exact ⟨pid, ids, now, hid, List.mem_append_left _ hmem⟩
  earlier := by
    intro e log h hall
    obtain ⟨pid, messageId, message, now, later, between, earlier, rfl, hread⟩ := hall
    exact h ⟨pid, messageId, message, now, e :: later, between, earlier, rfl, hread⟩

section
variable (D : Deployment) {pid : Nat} {w : World chatInterface Server Failure Call}

/-- A step that leaves the messages alone. -/
theorem receipts_keeps_same {w' : World chatInterface Server Failure Call}
    (h : w'.state.messages = w.state.messages) (hlog : ∃ new, w'.log = new ++ w.log) :
    receipts.Keeps w w' := by
  obtain ⟨new, hlog⟩ := hlog
  refine ⟨⟨.of_messages h, new, hlog, fun id hn hr => absurd ?_ hn⟩, trivial⟩
  rw [statusOf, ← h]
  exact hr

theorem receipts_keeps_respond {q : Query}
    (hforward : ∀ id status now, q = .messageSave id status now →
      ∀ old, statusOf id w.state = some old → old.rank ≤ status.rank)
    (hread : ∀ id status now, q = .messageSave id status now → status ≠ .read) :
    receipts.Keeps w ((chat D).respond pid q w) := by
  have hafter := answer_messages D q w.state
  refine ⟨⟨hafter.forward hforward, [.answered pid q (Server.answer D q w.state).1], rfl,
    fun id hn hr => ?_⟩, trivial⟩
  obtain ⟨ids, now, rfl, hid⟩ := hafter.becomes_read hread hn hr
  exact ⟨pid, ids, now, hid, List.mem_singleton_self _⟩

/-- Only `markMessageDelivered` saves a message that it has loaded. -/
theorem receipts_steady_of_within {β : Type} {p : Chat β} {A : Action → Prop}
    (hp : p.Within A fun q : Query => ∀ id status now, q ≠ .messageSave id status now) :
    (chat D).Steady receipts p := by
  refine Steady.of_within (fun pid a w _ _ => ?_) (fun pid q w hq _ => ?_) (fun pid q w _ => ?_) hp
  · exact receipts_keeps_same (Server.act_messages D a w.state) ⟨[_], rfl⟩
  · exact receipts_keeps_respond D (fun id status now h => absurd h (hq id status now))
      fun id status now h => absurd h (hq id status now)
  · exact receipts_keeps_same rfl ⟨[_], rfl⟩

theorem isConversationMember_steady (id : Value) (userId : ObjectId) :
    (chat D).Steady receipts (isConversationMember D id userId) :=
  receipts_steady_of_within D (isConversationMember_within D id userId
    (A := fun _ => True) (by simp))

/-- `pid` has loaded the message when it was not `read`; if it is now, an update came since. -/
def LoadedUnread (pid : Nat) (messageId : Text) (message : Message)
    (w : World chatInterface Server Failure Call) : Prop :=
  ∃ between earlier,
    w.log = between ++ .answered pid (.messageFindById messageId) (.ok (some message)) :: earlier ∧
      (statusOf message.id w.state = some .read → ReadIn message.id between)

theorem LoadedUnread.outlasts {messageId : Text} {message : Message}
    {w w' : World chatInterface Server Failure Call}
    (h : LoadedUnread pid messageId message w) (hrel : receipts.rel w w') :
    LoadedUnread pid messageId message w' := by
  obtain ⟨between, earlier, hlog, hread⟩ := h
  obtain ⟨_, new, hnew, hread'⟩ := hrel
  refine ⟨new ++ between, earlier, by rw [hnew, hlog, List.append_assoc], fun h => ?_⟩
  by_cases hw : statusOf message.id w.state = some .read
  · obtain ⟨pid, ids, now, hid, hmem⟩ := hread hw
    exact ⟨pid, ids, now, hid, List.mem_append_right _ hmem⟩
  · obtain ⟨pid, ids, now, hid, hmem⟩ := hread' message.id hw h
    exact ⟨pid, ids, now, hid, List.mem_append_left _ hmem⟩

/-- The save of a message that was not `read` when loaded keeps the order, unless it
overtakes an update. -/
theorem receipts_keeps_save {messageId : Text} {message : Message} {now : Nat}
    (h : LoadedUnread pid messageId message w)
    (ha : receipts.assume ((chat D).respond pid (.messageSave message.id .delivered now) w).log) :
    receipts.Keeps w ((chat D).respond pid (.messageSave message.id .delivered now) w) := by
  refine receipts_keeps_respond D ?_ (by simp)
  intro id status now' hq old hold
  obtain ⟨rfl, rfl, -⟩ := Query.messageSave.inj hq
  cases old with
  | sent => decide
  | delivered => exact Nat.le_refl _
  | read =>
    obtain ⟨between, earlier, hlog, hread⟩ := h
    refine absurd ⟨pid, messageId, message, now, [], between, earlier, ?_, hread hold⟩ ha
    simp only [respond, hlog]
    rfl

theorem find_answer {messageId : Text} {message : Message} {s : Server}
    (h : (Server.answer D (.messageFindById messageId) s).1 = .ok (some message)) :
    statusOf message.id s = some message.status := by
  simp only [Server.answer, Server.casting] at h
  split at h
  · rename_i id hid
    have hfind : s.messages.find id = some message := Except.ok.inj h
    rw [statusOf, (Data.Collection.find_eq_some.mp hfind).2, hfind]
    rfl
  · cases h

theorem markMessageDelivered_steady (messageId : Text) (userId : ObjectId) :
    (chat D).Steady receipts (markMessageDelivered D messageId userId) := by
  intro pid b w hk
  unfold markMessageDelivered
  split
  · exact hk
  · refine (safe_bind _ _ _ _ _).mpr (Safe.of_query hk ?_ ?_ ?_
      fun e w₁ w₂ _ h => .refl h.keeps.inv)
    · exact fun w₁ _ _ => receipts_keeps_respond D (by simp) (by simp)
    · exact fun w₁ _ _ => receipts_keeps_same rfl ⟨[_], rfl⟩
    · intro found w₁ w₂ hw₁ hfound _ hw₂
      cases found with
      | none => exact .refl hw₂.inv
      | some message =>
        apply (safe_bind _ _ _ _ _).mpr
        have hmember := isConversationMember_steady D
          (.string message.conversationId.toString) userId pid w₂ w₂ (.refl hw₂.inv)
        by_cases hsent : message.status = .sent
        · have hloaded : LoadedUnread pid messageId message w₂ := by
            refine LoadedUnread.outlasts ⟨[], w₁.log, ?_, fun hread => ?_⟩ hw₂.rel
            · simp only [respond, hfound]
              rfl
            · have hsame : ((chat D).respond pid (.messageFindById messageId) w₁).state = w₁.state :=
                Server.answer_reads D (q := .messageFindById messageId) trivial w₁.state
              rw [hsame, find_answer D hfound, hsent] at hread
              cases hread
          refine (hmember.carry (fun w w' h h' => LoadedUnread.outlasts h h') hloaded).mono ?_
          intro r b w hall
          obtain ⟨hk, hb⟩ := hall
          rcases r with e | isMember
          · exact hk
          · show (chat D).Safe receipts pid _ (if (!isMember) = true then _ else _) b w
            split
            · exact hk
            · -- The save: its copy is behind only if an update came since it was loaded.
              have hw : LoadedUnread pid messageId message w := hb.outlasts hk.rel
              have hnow : receipts.Keeps w ((chat D).perform pid .now w) :=
                receipts_keeps_same rfl ⟨[_], rfl⟩
              refine (safe_bind _ _ _ _ _).mpr ((safe_bind _ _ _ _ _).mpr ?_)
              refine Safe.of_query (hk.trans hnow) ?_ ?_ ?_ ?_
              · exact fun w₃ hw₃ ha₃ =>
                  receipts_keeps_save D ((hw.outlasts hnow.rel).outlasts hw₃.rel) ha₃
              · exact fun w₃ _ _ => receipts_keeps_same rfl ⟨[_], rfl⟩
              · exact fun _ _ w₄ _ _ _ hw₄ => .refl hw₄.inv
              · exact fun e w₃ w₄ _ h => .refl h.keeps.inv
        · apply hmember.mono
          intro r b w hk
          rcases r with e | isMember
          · exact hk
          · show (chat D).Safe receipts pid _ (if (!isMember) = true then _ else _) b w
            split
            · exact hk
            · exact hk

theorem body_steady (call : Call) : (chat D).Steady receipts (Call.body D call) := by
  have hwithin : (∀ id status now, ¬ call.Asks (.messageSave id status now)) →
      (chat D).Steady receipts (Call.body D call) := fun h =>
    receipts_steady_of_within D ((body_within D call).mono (fun _ h => h)
      fun q hq id status now he => h id status now (he ▸ hq))
  cases call with
  | event socket name args id =>
    cases name with
    | messageDelivered =>
      refine Steady.bind (Steady.tryCatch ?_ fun error => ?_) fun _ => .ret _
      · refine Steady.bind ?_ fun input => Steady.bind (markMessageDelivered_steady D _ _) fun _ => ?_
        · exact receipts_steady_of_within D (parseWith_within (A := fun _ => True) _ _)
        · refine receipts_steady_of_within D (A := fun _ => True) ?_
          exact ((Program.within_perform _).mpr trivial).bind fun _ => callAck_within _ _ trivial
      · exact receipts_steady_of_within D
          (receiptError_within (A := fun _ => True) _ (fun _ _ => trivial) _ error)
    | _ => exact hwithin fun _ _ _ h => h
  | _ => exact hwithin fun _ _ _ h => h

theorem chat_upholds_receipts : (chat D).Upholds receipts fun _ _ _ _ => True := by
  refine Upholds.of_steady (fun pid call w s _ ha => ?_) (body_steady D) fun n w _ => ?_
  · exact receipts_keeps_same (accept_sameBehind ha).messages ⟨[_], rfl⟩
  · exact receipts_keeps_same rfl ⟨[], rfl⟩

theorem Throughout.forward_of_not_overtaken {s : Server} {moves : List (Move Call)}
    (h : ¬ Overtaken ((chat D).run (Config.start s) moves).world.log) :
    (chat D).Throughout Forward (Config.start s) moves := by
  intro before between hprefix
  obtain ⟨rest, rfl⟩ := hprefix
  have hlog : ∀ front back, front ++ back = before ++ between ++ rest →
      ¬ Overtaken ((chat D).run (Config.start s) front).world.log := by
    intro front back heq
    rw [← heq, run_append] at h
    obtain ⟨new, hnew⟩ := (chat D).run_log ((chat D).run (Config.start s) front) back
    exact Discipline.earlier_append (D := receipts) (hnew ▸ h)
  have hstart : (chat D).Sound receipts (fun _ _ _ _ => True) (Config.start s) := .start trivial
  obtain ⟨_, hsound⟩ := hstart.run (chat_upholds_receipts D) before
    (hlog before (between ++ rest) (by rw [List.append_assoc]))
  have hrun := hsound.run (chat_upholds_receipts D) between
    (by rw [← run_append]; exact hlog (before ++ between) rest rfl)
  rw [run_append]
  exact hrun.1.rel.1

/-! ### Overtaking takes a status back -/

theorem statusOf_updateMany {ids : List ObjectId} {now : Nat} {id : ObjectId} {s s' : Server}
    (h : Server.answer D (.messageUpdateMany ids now) s = (.ok (), s')) (hid : id ∈ ids)
    {old : MessageStatus} (hold : statusOf id s = some old) : statusOf id s' = some .read := by
  obtain rfl : s.setStatus _ _ _ = s' := congrArg Prod.snd h
  obtain ⟨m, hm, rfl⟩ := Option.map_eq_some_iff.mp hold
  rw [statusOf_setStatus, hm, Option.map_some, (Data.Collection.find_eq_some.mp hm).2]
  rw [if_pos (List.contains_iff_mem.mpr hid)]

theorem statusOf_save {status : MessageStatus} {now : Nat} {id : ObjectId} {s s' : Server}
    (h : Server.answer D (.messageSave id status now) s = (.ok (), s'))
    {old : MessageStatus} (hold : statusOf id s = some old) : statusOf id s' = some status := by
  obtain rfl : s.setStatus _ _ _ = s' := congrArg Prod.snd h
  obtain ⟨m, hm, rfl⟩ := Option.map_eq_some_iff.mp hold
  rw [statusOf_setStatus, hm, Option.map_some, (Data.Collection.find_eq_some.mp hm).2]
  rw [if_pos (beq_self_eq_true id)]

theorem not_overtaken_of_throughout {s : Server} {moves : List (Move Call)}
    (h : (chat D).Throughout Forward (Config.start s) moves) :
    ¬ Overtaken ((chat D).run (Config.start s) moves).world.log := by
  intro h'
  obtain ⟨pid, messageId, message, now, later, between, earlier, hlog, pid', ids, now', hid, hmem⟩ := h'
  obtain ⟨after, before, rfl⟩ := List.append_of_mem hmem
  rw [List.append_assoc, List.cons_append, List.append_assoc, List.cons_append] at hlog
  -- The three answers, last to first: the save, the update, the load.
  obtain ⟨upToSave, m₃, hprefix₃, hlog₃, hanswer₃⟩ := (chat D).run_answered hlog
  obtain ⟨upToUpdate, m₂, hprefix₂, hlog₂, hanswer₂⟩ := (chat D).run_answered hlog₃
  obtain ⟨upToLoad, m₁, hprefix₁, hlog₁, hanswer₁⟩ := (chat D).run_answered hlog₂
  have hupdate : upToUpdate ++ [m₂] <+: moves :=
    hprefix₂.trans ((List.prefix_append _ _).trans hprefix₃)
  have hload : upToLoad <+: upToUpdate := (List.prefix_append _ _).trans hprefix₁
  -- Loaded, so stored from then on; updated to `read`, so `read` from then on; saved `delivered`.
  have hfound : statusOf message.id ((chat D).run (Config.start s) upToLoad).world.state =
      some message.status := find_answer D (congrArg Prod.fst hanswer₁)
  obtain ⟨more, rfl⟩ := hload
  obtain ⟨status, hstatus, _⟩ :=
    h upToLoad more ((List.prefix_append _ _).trans hupdate) message.id _ hfound
  have hread := statusOf_updateMany D hanswer₂ hid hstatus
  obtain ⟨rest, rfl⟩ := hprefix₂
  obtain ⟨status', hstatus', hle⟩ :=
    h (upToLoad ++ more ++ [m₂]) rest ((List.prefix_append _ _).trans hprefix₃) message.id _ hread
  obtain ⟨last, hlast, hle'⟩ := h _ [m₃] hprefix₃ message.id _ hstatus'
  rw [statusOf_save D hanswer₃ hstatus'] at hlast
  cases hlast
  exact absurd (Nat.le_trans hle hle') (by decide)

/-- **The order of statuses.** In any run of the server, from any state, no status moves
backwards exactly if no save of a loaded copy overtakes an update of that message. -/
theorem status_forward_iff (s : Server) (moves : List (Move Call)) :
    (chat D).Throughout Forward (Config.start s) moves ↔
      ¬ Overtaken ((chat D).run (Config.start s) moves).world.log :=
  ⟨not_overtaken_of_throughout D, Throughout.forward_of_not_overtaken D⟩

end

/-! A conversation of two, with one message that is `sent`. -/

def receiptServer : Server :=
  .boot .empty
    ⟨[⟨.ending 3, .oneToOne, none, [.ending 1, .ending 2], some (.ending 4), 0, 0⟩], by decide⟩
    ⟨[⟨.ending 4, .ending 3, .ending 1, "hi".toList, .sent, 0, 0⟩], by decide⟩ 5

def recipient : Socket := ⟨.ofChar 'b', .ending 2, "bob".toList⟩

/-- The recipient's client reports the message delivered and then read. The second
call is through before the first has checked the membership. -/
def receiptRace : List (Move Call) :=
  let messageId := Value.string (ObjectId.ending 4).toString
  let conversationId := Value.string (ObjectId.ending 3).toString
  [.arrive (.connect recipient),
    .arrive (.event recipient .messageDelivered
      [.object [("messageId", messageId)], .function] (.ending 9)),
    .answer 1, .resume 1,
    .arrive (.event recipient .messageRead
      [.object [("conversationId", conversationId), ("upToMessageId", messageId)], .function]
      (.ending 9)),
    .answer 2, .resume 2, .answer 2, .resume 2, .answer 2, .resume 2, .answer 2,
    .answer 1, .resume 1, .answer 1]

theorem receiptRace_backwards :
    ¬ (chat .default).Throughout Forward (Config.start receiptServer) receiptRace := by
  intro h
  have hread : statusOf (.ending 4) ((chat .default).run (Config.start receiptServer)
      (receiptRace.take 12)).world.state = some .read := by decide +kernel
  obtain ⟨status, hstatus, hle⟩ := h (receiptRace.take 12) (receiptRace.drop 12)
    (by rw [List.take_append_drop]) _ _ hread
  have hdelivered : statusOf (.ending 4) ((chat .default).run (Config.start receiptServer)
      (receiptRace.take 12 ++ receiptRace.drop 12)).world.state = some .delivered := by
    decide +kernel
  rw [hdelivered] at hstatus
  cases hstatus
  exact absurd hle (by decide)

end RealtimeChat
