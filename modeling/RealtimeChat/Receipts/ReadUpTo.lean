import RealtimeChat.Receipts.UnreadCount

/-! What one call of `markMessagesRead` does, to the last count.

The `find` of the call and the aggregation of `listConversations` are written
independently of each other, the one with a bound on `createdAt` and the other over
many conversations at once. They agree: what the call lists is what the counts lose
(`markMessagesRead_exact`). -/
namespace RealtimeChat
open Data (Text)
open Async Async.System

/-- What `listConversations` counts for a member of the conversation. -/
def isUnread (id reader : ObjectId) (m : Message) : Bool :=
  m.conversationId == id && m.senderId != reader && m.status != .read

def unreadCount (id reader : ObjectId) (s : Server) : Nat :=
  s.messages.docs.countP (isUnread id reader)

/-- How many of the listed messages are not by the user. -/
def notBy (userId : ObjectId) (ids : List ObjectId) (s : Server) : Nat :=
  ids.countP fun id => (s.messages.find id).any fun m => m.senderId != userId

/-! ### Counts before and after -/

theorem reportedUnread_of_not_member {D : Deployment} {userId id : ObjectId} {s : Server}
    (h : ¬ IsMember id userId s) : reportedUnread D userId id s = none := by
  unfold reportedUnread
  generalize hlist : ((chat D).alone (listConversations userId) s).1 = result
  cases result with
  | error e => rfl
  | ok listed =>
    dsimp only
    rw [Option.map_eq_none_iff, List.find?_eq_none]
    intro c hc
    obtain ⟨stored, hstored, hmember, hpopulated⟩ := mem_listed D hlist hc
    rw [hpopulated, beq_iff_eq]
    exact fun hid => h ⟨stored, hstored, hid, hmember⟩

/-- Where the members and the counts agree, so do the reports. -/
theorem reportedUnread_congr {D : Deployment} {userId id : ObjectId} {s s' : Server}
    (hconversations : s'.conversations = s.conversations)
    (hcount : unreadCount id userId s' = unreadCount id userId s) :
    reportedUnread D userId id s' = reportedUnread D userId id s := by
  have hsame : IsMember id userId s' ↔ IsMember id userId s := by
    rw [IsMember, IsMember, hconversations]
  by_cases h : IsMember id userId s
  · rw [reportedUnread_eq h, reportedUnread_eq (hsame.mpr h)]
    exact congrArg some hcount
  · rw [reportedUnread_of_not_member h, reportedUnread_of_not_member (mt hsame.mp h)]

theorem of_mem_setStatus {p : Message → Bool} {status : MessageStatus} {now : Nat} {s : Server}
    {m' : Message} (h : m' ∈ (s.setStatus p status now).messages.docs) : ∃ m ∈ s.messages.docs,
      p m = true ∧ m' = {m with status, updatedAt := now} ∨ p m = false ∧ m' = m := by
  obtain ⟨m, hm, rfl⟩ := List.mem_map.mp h
  refine ⟨m, hm, ?_⟩
  by_cases hp : p m = true
  · exact .inl ⟨hp, if_pos hp⟩
  · exact .inr ⟨Bool.eq_false_iff.mpr hp, if_neg hp⟩

/-- What is set to `read` is no longer counted; the rest is. -/
theorem unreadCount_setRead (id reader : ObjectId) (p : Message → Bool) (now : Nat) (s : Server) :
    unreadCount id reader s = unreadCount id reader (s.setStatus p .read now) +
      s.messages.docs.countP fun m => isUnread id reader m && p m := by
  have hafter : unreadCount id reader (s.setStatus p .read now) =
      s.messages.docs.countP fun m => isUnread id reader m && !p m := by
    show List.countP _ (s.messages.docs.map _) = _
    rw [List.countP_map]
    apply List.countP_congr
    intro m _
    by_cases hp : p m = true
    · simp [hp, isUnread]
    · simp [hp]
  rw [hafter, unreadCount, List.countP_eq_countP_filter_add _ _ p, List.countP_filter,
    List.countP_filter, Nat.add_comm]

section
variable {id reader : ObjectId} {upTo : Nat} {s : Server}

/-- The ids that `markMessagesRead` finds, for a message created at `upTo`. -/
def unreadIds (id reader : ObjectId) (upTo : Nat) (s : Server) : List ObjectId :=
  (s.messages.docs.filter (Server.matchesUnread id reader upTo)).map Message.id

theorem matchesUnread_iff {m : Message} : Server.matchesUnread id reader upTo m = true ↔
    m.conversationId = id ∧ m.senderId ≠ reader ∧ m.status ≠ .read ∧ m.createdAt ≤ upTo := by
  simp only [Server.matchesUnread, Bool.and_eq_true, beq_iff_eq, bne_iff_ne, ne_eq,
    decide_eq_true_eq, and_assoc]

theorem isUnread_iff {m : Message} : isUnread id reader m = true ↔
    m.conversationId = id ∧ m.senderId ≠ reader ∧ m.status ≠ .read := by
  simp only [isUnread, Bool.and_eq_true, beq_iff_eq, bne_iff_ne, ne_eq, and_assoc]

theorem unreadIds_contains {m : Message} (hm : m ∈ s.messages.docs) :
    (unreadIds id reader upTo s).contains m.id = Server.matchesUnread id reader upTo m := by
  rw [Bool.eq_iff_iff, List.contains_iff_mem]
  constructor
  · intro hlisted
    obtain ⟨m', hm', heq⟩ := List.mem_map.mp hlisted
    obtain ⟨hmem, hmatch⟩ := List.mem_filter.mp hm'
    rwa [← s.messages.eq_of_key hmem hm heq]
  · intro hmatch
    exact List.mem_map_of_mem (List.mem_filter.mpr ⟨hm, hmatch⟩)

theorem mem_unreadIds {i : ObjectId} : i ∈ unreadIds id reader upTo s ↔
    ∃ m ∈ s.messages.docs, m.id = i ∧ m.conversationId = id ∧ m.senderId ≠ reader ∧
      m.status ≠ .read ∧ m.createdAt ≤ upTo := by
  rw [unreadIds, List.mem_map]
  apply exists_congr
  intro m
  rw [List.mem_filter, matchesUnread_iff, and_assoc, and_comm (b := m.id = i)]

theorem unreadIds_nodup : (unreadIds id reader upTo s).Nodup :=
  s.messages.distinct.sublist (List.filter_sublist.map _)

theorem notBy_unreadIds (viewer : ObjectId) : notBy viewer (unreadIds id reader upTo s) s =
    s.messages.docs.countP fun m =>
      isUnread id viewer m && (unreadIds id reader upTo s).contains m.id := by
  have hfound : notBy viewer (unreadIds id reader upTo s) s = (s.messages.docs.filter
      (Server.matchesUnread id reader upTo)).countP fun m => m.senderId != viewer := by
    rw [notBy, unreadIds, List.countP_map]
    apply List.countP_congr
    intro m hm
    have hfind := Data.Collection.find_eq_some.mpr ⟨(List.mem_filter.mp hm).1, rfl⟩
    rw [Function.comp_apply, hfind, Option.any_some]
  rw [hfound, List.countP_filter]
  apply List.countP_congr
  intro m hm
  rw [unreadIds_contains hm, Bool.and_eq_true, Bool.and_eq_true, matchesUnread_iff, isUnread_iff,
    bne_iff_ne]
  constructor
  · intro hmatch
    obtain ⟨hviewer, hid, hreader, hstatus, hdate⟩ := hmatch
    exact ⟨⟨hid, hviewer, hstatus⟩, hid, hreader, hstatus, hdate⟩
  · intro hmatch
    obtain ⟨⟨_, hviewer, _⟩, hrest⟩ := hmatch
    exact ⟨hviewer, hrest⟩

/-- None of what a reader is given to read is the reader's own. -/
theorem notBy_reader :
    notBy reader (unreadIds id reader upTo s) s = (unreadIds id reader upTo s).length := by
  rw [notBy, List.countP_eq_length]
  intro i hi
  obtain ⟨m, hm, rfl, _, hsender, _⟩ := mem_unreadIds.mp hi
  rw [Data.Collection.find_eq_some.mpr ⟨hm, rfl⟩, Option.any_some, bne_iff_ne]
  exact hsender

/-- No other conversation loses anything. -/
theorem countP_elsewhere {other viewer : ObjectId} (hne : other ≠ id) :
    (s.messages.docs.countP fun m =>
      isUnread other viewer m && (unreadIds id reader upTo s).contains m.id) = 0 := by
  rw [List.countP_eq_zero]
  intro m hm hboth
  rw [unreadIds_contains hm, Bool.and_eq_true, isUnread_iff, matchesUnread_iff] at hboth
  exact hne (hboth.1.1.symm.trans hboth.2.1)

end

/-! ### The call -/

/-- What `markMessagesRead` returns and leaves for a member `userId` of the conversation `id`
and a message of it created at `upTo`. -/
structure MarksRead (D : Deployment) (id userId : ObjectId) (upTo : Nat) (s s' : Server)
    (messageIds : List ObjectId) : Prop where
  once : messageIds.Nodup
  exact : ∀ i, i ∈ messageIds ↔ ∃ m ∈ s.messages.docs, m.id = i ∧ m.conversationId = id ∧
    m.senderId ≠ userId ∧ m.status ≠ .read ∧ m.createdAt ≤ upTo
  written : s'.messages.docs = s.messages.docs.map fun m =>
    if m.id ∈ messageIds then {m with status := .read, updatedAt := s.clock} else m
  untouched : s' = {s with messages := s'.messages}
  own : ∃ left, reportedUnread D userId id s = some (left + messageIds.length) ∧
    reportedUnread D userId id s' = some left
  others : ∀ v, IsMember id v s → ∃ left,
    reportedUnread D v id s = some (left + notBy v messageIds s) ∧
      reportedUnread D v id s' = some left
  elsewhere : ∀ v other, other ≠ id → reportedUnread D v other s' = reportedUnread D v other s
  caughtUp : (∀ m ∈ s.messages.docs, m.conversationId = id → m.createdAt ≤ upTo) →
    reportedUnread D userId id s' = some 0

section
variable {D : Deployment} {id userId : ObjectId} {upTo : Nat} {s : Server}

theorem MarksRead.of_unreadIds (h : IsMember id userId s) : MarksRead D id userId upTo s
    (s.setStatus (fun m => (unreadIds id userId upTo s).contains m.id) .read s.clock)
    (unreadIds id userId upTo s) := by
  have hothers : ∀ v, IsMember id v s → ∃ left,
      reportedUnread D v id s = some (left + notBy v (unreadIds id userId upTo s) s) ∧
        reportedUnread D v id (s.setStatus (fun m => (unreadIds id userId upTo s).contains m.id)
          .read s.clock) = some left := by
    intro v hv
    refine ⟨_, ?_, reportedUnread_eq hv⟩
    rw [reportedUnread_eq hv, notBy_unreadIds]
    exact congrArg some (unreadCount_setRead id v _ _ s)
  constructor
  · exact unreadIds_nodup
  · exact fun i => mem_unreadIds
  · show s.messages.docs.map _ = _
    simp only [List.contains_iff_mem]
  · rfl
  · obtain ⟨left, hbefore, hafter⟩ := hothers userId h
    exact ⟨left, by rw [hbefore, notBy_reader], hafter⟩
  · exact hothers
  · intro v other hne
    refine @reportedUnread_congr D v other s (s.setStatus _ _ _) rfl ?_
    have hsplit := unreadCount_setRead other v
      (fun m => (unreadIds id userId upTo s).contains m.id) s.clock s
    rw [countP_elsewhere hne, Nat.add_zero] at hsplit
    exact hsplit.symm
  · intro hlatest
    rw [reportedUnread_eq (s := s.setStatus _ _ _) h, Option.some.injEq, List.countP_eq_zero]
    intro m' hm' hunread
    have hcounted := isUnread_iff.mp hunread
    -- A message that is still unread was not listed, so it is later than the bound.
    rcases of_mem_setStatus hm' with ⟨m, hm, ⟨_, rfl⟩ | ⟨hnot, rfl⟩⟩
    · exact hcounted.2.2 rfl
    · rw [unreadIds_contains hm, Bool.eq_false_iff, ne_eq, matchesUnread_iff] at hnot
      obtain ⟨hid, hsender, hstatus⟩ := hcounted
      exact hnot ⟨hid, hsender, hstatus, hlatest m' hm hid⟩

/-- With nothing to write, writing changes nothing. -/
theorem setStatus_of_nil {p : Message → Bool} (hp : ∀ m, p m = false) (status : MessageStatus)
    (now : Nat) : s.setStatus p status now = s := by
  have hmessages : s.messages.modify p (fun m => {m with status, updatedAt := now}) (fun _ => rfl) =
      s.messages := by
    cases hs : s.messages with
    | mk docs distinct => simp [Data.Collection.modify, hp]
  rw [Server.setStatus, hmessages]

/-- What has just been read is not found again. -/
theorem unreadIds_setRead (now : Nat) : unreadIds id userId upTo
    (s.setStatus (fun m => (unreadIds id userId upTo s).contains m.id) .read now) = [] := by
  rw [List.eq_nil_iff_forall_not_mem]
  intro i hi
  obtain ⟨m', hm', -, hmatch⟩ := mem_unreadIds.mp hi
  rcases of_mem_setStatus hm' with ⟨m, hm, ⟨_, rfl⟩ | ⟨hnot, rfl⟩⟩
  · exact hmatch.2.2.1 rfl
  · rw [unreadIds_contains hm, Bool.eq_false_iff, ne_eq, matchesUnread_iff] at hnot
    exact hnot hmatch

variable {conversationId upToMessageId : Text} {m : Message}

theorem markMessagesRead_of_member (hid : ObjectId.cast conversationId = some id)
    (hupTo : ObjectId.cast upToMessageId = some m.id) (h : IsMember id userId s)
    (hm : m ∈ s.messages.docs) (hin : m.conversationId = id) :
    (chat D).alone (markMessagesRead D conversationId upToMessageId userId) s =
      (.ok ⟨conversationId, unreadIds id userId m.createdAt s⟩,
        s.setStatus (fun x => (unreadIds id userId m.createdAt s).contains x.id) .read s.clock) := by
  have hfound : (s.messages.find m.id).filter (fun x => x.conversationId == id) = some m := by
    rw [Data.Collection.find_eq_some.mpr ⟨hm, rfl⟩, Option.filter_some, if_pos (by simp [hin])]
  rw [markMessagesRead_alone D hid hupTo, findOne_isSome.mpr h, hfound]
  show (if (unreadIds id userId m.createdAt s).isEmpty = true then _ else _) = _
  split
  · rename_i hnone
    rw [setStatus_of_nil (fun x => by rw [List.isEmpty_iff.mp hnone]; rfl)]
    rfl
  · rfl

/-- **One call, exactly.** A member's call of `markMessagesRead`, run to completion, lists
and sets to `read` what is unread up to the message it names. The counts of all members
drop accordingly, no other count changes, and the same call later finds nothing. -/
theorem markMessagesRead_exact (D : Deployment) (s : Server) (conversationId upToMessageId : Text)
    (id userId : ObjectId) (m : Message) (hid : ObjectId.cast conversationId = some id)
    (hupTo : ObjectId.cast upToMessageId = some m.id) (h : IsMember id userId s)
    (hm : m ∈ s.messages.docs) (hin : m.conversationId = id) :
    ∃ messageIds s', (chat D).alone (markMessagesRead D conversationId upToMessageId userId) s =
        (.ok ⟨conversationId, messageIds⟩, s') ∧
      MarksRead D id userId m.createdAt s s' messageIds ∧
      ∀ n, (chat D).alone (markMessagesRead D conversationId upToMessageId userId)
          ((chat D).pass n s') = (.ok ⟨conversationId, []⟩, (chat D).pass n s') := by
  refine ⟨_, _, markMessagesRead_of_member hid hupTo h hm hin, .of_unreadIds h, fun n => ?_⟩
  -- The message it names is there as before, perhaps `read` by now.
  generalize hids : unreadIds id userId m.createdAt s = ids
  obtain ⟨m', hm', hsame, hin', hdate⟩ : ∃ m' ∈ ((chat D).pass n
      (s.setStatus (fun x => ids.contains x.id) .read s.clock)).messages.docs,
      m'.id = m.id ∧ m'.conversationId = m.conversationId ∧ m'.createdAt = m.createdAt := by
    refine ⟨_, List.mem_map_of_mem hm, ?_⟩
    split <;> exact ⟨rfl, rfl, rfl⟩
  have hagain := markMessagesRead_of_member (D := D) hid (hsame ▸ hupTo) (s := (chat D).pass n
    (s.setStatus (fun x => ids.contains x.id) .read s.clock)) h hm' (hin'.trans hin)
  have hnone : unreadIds id userId m'.createdAt ((chat D).pass n
      (s.setStatus (fun x => ids.contains x.id) .read s.clock)) = [] := by
    rw [hdate, ← hids]
    exact unreadIds_setRead s.clock
  rw [hagain, hnone]
  exact congrArg (Prod.mk _) (setStatus_of_nil (fun _ => rfl) _ _)

end

/-! A group of three, with a message of each of two. -/

def helloMessage : Message := ⟨.ending 6, .ending 4, .ending 2, "hello".toList, .delivered, 1, 1⟩

def readServer : Server :=
  .boot .empty
    (.single ⟨.ending 4, .group, some "team".toList, [.ending 1, .ending 2, .ending 3], none, 0, 0⟩)
    ⟨[⟨.ending 5, .ending 4, .ending 1, "hi".toList, .sent, 0, 0⟩, helloMessage], by decide⟩ 5

/-- The third reads what the second has last written. -/
theorem markMessagesRead_exact_group :
    ∃ messageIds s', (chat .default).alone (markMessagesRead .default (ObjectId.ending 4).toString
        (ObjectId.ending 6).toString (.ending 3)) readServer =
          (.ok ⟨(ObjectId.ending 4).toString, messageIds⟩, s') ∧
      MarksRead .default (.ending 4) (.ending 3) 1 readServer s' messageIds ∧
      ∀ n, (chat .default).alone (markMessagesRead .default (ObjectId.ending 4).toString
        (ObjectId.ending 6).toString (.ending 3)) ((chat .default).pass n s') =
          (.ok ⟨(ObjectId.ending 4).toString, []⟩, (chat .default).pass n s') := by
  have hmember : IsMember (.ending 4) (.ending 3) readServer := findOne_isSome.mp (by decide +kernel)
  exact markMessagesRead_exact .default readServer _ _ _ _ helloMessage (ObjectId.cast_toString _)
    (ObjectId.cast_toString _) hmember (by decide) rfl

end RealtimeChat
