import RealtimeChat.Client.UseConversations
import RealtimeChat.Receipts.ReadUpTo

/-! The unread badges of a client (`frontend-ui/src/components/ConversationList.tsx`).

A badge shows the `unreadCount` that came with the refresh: no listener of
`useConversations` touches it. On the server a message of another member adds to the
count and a `message:read` takes from it, so the badges are right exactly if the two are in
balance in every conversation (`badges_iff`). -/
namespace RealtimeChat
open Data (Text Collection)
open Async Async.System

/-- Calls, each run to completion, and time between them. The reads are those of the
signed-in user; `id` is the `_id` of what is created. -/
inductive UnreadMove where
  | send (id senderId : ObjectId) (input : SendMessageInput)
  | read (conversationId upToMessageId : Text)
  | pass (n : Nat)

/-- Since the refresh. -/
structure UnreadSession where
  server : Server
  /-- What the client has been sent, first to last. -/
  events : List ServerEvent
  created : List Message
  /-- What the user has read that had not been read before. -/
  readOff : List Message

section
variable (D : Deployment) (userId : ObjectId)

def UnreadSession.step (p : UnreadSession) : UnreadMove → UnreadSession
  | .send id senderId input =>
    match (chat D).alone (createMessage id senderId input) p.server with
    | (.ok m, s) => {p with
      server := s
      events := p.events ++ [.messageNew (toSocketPayload m)]
      created := p.created ++ [m.message]}
    | (.error _, s) => {p with server := s}
  | .read conversationId upToMessageId =>
    match (chat D).alone (markMessagesRead D conversationId upToMessageId userId) p.server with
    | (.ok r, s) => {p with
      server := s
      events := p.events ++ [.messageRead r.conversationId r.messageIds userId]
      readOff := p.readOff ++
        (coveredBy conversationId upToMessageId userId p.server).filter fun m => m.status != .read}
    | (.error _, s) => {p with server := s}
  | .pass n => {p with server := (chat D).pass n p.server}

def UnreadSession.after (p : UnreadSession) (moves : List UnreadMove) : UnreadSession :=
  moves.foldl (UnreadSession.step D userId) p

/-- Every conversation is shown with the count that `listConversations` returns by now. -/
def BadgesRight (s : Server) (hook : UseConversations) : Prop :=
  ∀ c ∈ hook.conversations, c.unreadCount = reportedUnread D userId c.id s

instance (s : Server) (hook : UseConversations) : Decidable (BadgesRight D userId s hook) :=
  inferInstanceAs (Decidable (∀ c ∈ hook.conversations, _))

/-- As many messages of others have come into the conversation as the user has read off. -/
def Balanced (id : ObjectId) (p : UnreadSession) : Prop :=
  (p.created.countP fun m => m.conversationId == id && m.senderId != userId) =
    p.readOff.countP fun m => m.conversationId == id

end

instance (userId id : ObjectId) (p : UnreadSession) : Decidable (Balanced userId id p) :=
  inferInstanceAs (Decidable (_ = _))

/-! ### The counts of the server -/

section
variable {D : Deployment} {userId : ObjectId}

/-- A message that is not created leaves the state as it is. -/
theorem messageCreate_error {id senderId : ObjectId} {spelling text : Text} {now : Nat} {s t : Server}
    {e : Failure} (h : Server.answer D (.messageCreate id spelling senderId text now) s = (.error e, t)) :
    t = s := by
  simp only [Server.answer, Server.createMessage] at h
  split at h
  · split at h
    · exact (Prod.mk.inj h).2.symm
    · split at h
      · cases h
      · exact (Prod.mk.inj h).2.symm
  · exact (Prod.mk.inj h).2.symm

/-- A call of `createMessage` fails, or adds a message that nobody has read. -/
theorem createMessage_effect (id senderId : ObjectId) (input : SendMessageInput) (s : Server) :
    (∃ e, (chat D).alone (createMessage id senderId input) s = (.error e, s)) ∨
    ∃ m s', (chat D).alone (createMessage id senderId input) s = (.ok m, s') ∧
      s'.messages.docs = s.messages.docs ++ [m.message] ∧ m.message.status = .sent := by
  show (∃ e, (chat D).alone ((query (.conversationFindOne _ senderId)).bind _) s = _) ∨
    ∃ m s', (chat D).alone ((query (.conversationFindOne _ senderId)).bind _) s = _ ∧ _
  have hfind : (Server.answer D (.conversationFindOne (.string input.conversationId) senderId) s).2 = s := by
    simp only [Server.answer, Server.casting]
    split <;> rfl
  rw [alone_query_bind]
  rcases hfound : Server.answer D (.conversationFindOne (.string input.conversationId) senderId) s with
    ⟨e | found, t⟩
  · rw [hfound] at hfind
    subst hfind
    exact .inl ⟨e, rfl⟩
  · rw [hfound] at hfind
    subst hfind
    cases found with
    | none => exact .inl ⟨_, rfl⟩
    | some conversation =>
      show (∃ e, (chat D).alone ((query (.messageCreate id input.conversationId senderId input.text
        t.clock)).bind _) t = _) ∨ ∃ m s', (chat D).alone ((query (.messageCreate id
          input.conversationId senderId input.text t.clock)).bind _) t = _ ∧ _
      rw [alone_query_bind]
      rcases hcreated : Server.answer D (.messageCreate id input.conversationId senderId input.text
        t.clock) t with ⟨e | m, t'⟩
      · obtain rfl := messageCreate_error hcreated
        exact .inl ⟨e, rfl⟩
      · obtain ⟨-, hfields, hinsert⟩ := Server.messageCreate_answer (congrArg Prod.fst hcreated)
        rw [hcreated] at hinsert
        refine .inr ⟨⟨m, _⟩, _, rfl, (Collection.insert_eq_some hinsert).1, ?_⟩
        rw [hfields]

/-- What a call of `markMessagesRead` takes from the count of a conversation: what it covers
there that was unread. -/
theorem unreadCount_covered {conversationId upToMessageId : Text} {k : ObjectId} {upTo : Message}
    {s : Server} (hk : ObjectId.cast conversationId = some k)
    (hupTo : (ObjectId.cast upToMessageId).bind s.messages.find = some upTo) (now : Nat) (id : ObjectId) :
    unreadCount id userId s = unreadCount id userId (s.setStatus
        (fun m => (unreadIds k userId upTo.createdAt s).contains m.id) .read now) +
      ((coveredBy conversationId upToMessageId userId s).filter fun m => m.status != .read).countP
        fun m => m.conversationId == id := by
  rw [unreadCount_setRead id userId (fun m => (unreadIds k userId upTo.createdAt s).contains m.id) now s]
  simp only [coveredBy, hk, hupTo, List.countP_filter]
  congr 1
  apply List.countP_congr
  intro m hm
  rw [unreadIds_contains hm, Bool.and_eq_true, isUnread_iff, matchesUnread_iff]
  simp only [Bool.and_eq_true, beq_iff_eq, bne_iff_ne, ne_eq, decide_eq_true_eq]
  constructor
  · intro hboth
    obtain ⟨⟨hid, hsender, hstatus⟩, hk', -, -, hdate⟩ := hboth
    exact ⟨⟨hid, hstatus⟩, ⟨hk', hsender⟩, hdate⟩
  · intro hboth
    obtain ⟨⟨hid, hstatus⟩, ⟨hk', hsender⟩, hdate⟩ := hboth
    exact ⟨⟨hid, hsender, hstatus⟩, hk', hsender, hstatus, hdate⟩

theorem markMessagesRead_counts (conversationId upToMessageId : Text) (s : Server) :
    (∃ e, (chat D).alone (markMessagesRead D conversationId upToMessageId userId) s = (.error e, s)) ∨
    ∃ r s', (chat D).alone (markMessagesRead D conversationId upToMessageId userId) s = (.ok r, s') ∧
      s'.conversations = s.conversations ∧ ∀ id, unreadCount id userId s = unreadCount id userId s' +
        ((coveredBy conversationId upToMessageId userId s).filter fun m => m.status != .read).countP
          fun m => m.conversationId == id := by
  cases hk : ObjectId.cast conversationId with
  | none => exact .inl ⟨_, markMessagesRead_invalid D (.inl hk) userId s⟩
  | some k =>
    cases hupTo : ObjectId.cast upToMessageId with
    | none => exact .inl ⟨_, markMessagesRead_invalid D (.inr hupTo) userId s⟩
    | some u =>
      by_cases hmember : IsMember k userId s
      · cases hfound : (s.messages.find u).filter fun m => m.conversationId == k with
        | none =>
          refine .inl ⟨.app "Message not found" 404, ?_⟩
          rw [markMessagesRead_alone D hk hupTo, findOne_isSome.mpr hmember, hfound]
          rfl
        | some upTo =>
          obtain ⟨hfind, hin⟩ := Option.filter_eq_some_iff.mp hfound
          obtain ⟨hmem, rfl⟩ := Collection.find_eq_some.mp hfind
          refine .inr ⟨_, _, markMessagesRead_of_member hk hupTo hmember hmem (beq_iff_eq.mp hin), rfl, ?_⟩
          exact unreadCount_covered hk (by rw [hupTo]; exact hfind) s.clock
      · refine .inl ⟨.app "Conversation not found" 404, ?_⟩
        rw [markMessagesRead_alone D hk hupTo, Bool.eq_false_iff.mpr (mt findOne_isSome.mp hmember)]
        rfl

/-! ### The session -/

/-- The counts of the server since the refresh, and the user's memberships. -/
structure Counting (userId : ObjectId) (s : Server) (p : UnreadSession) : Prop where
  members : MembersStay s p.server
  counts : ∀ id, unreadCount id userId p.server + (p.readOff.countP fun m => m.conversationId == id) =
    unreadCount id userId s + p.created.countP fun m => m.conversationId == id && m.senderId != userId

theorem Counting.step {s : Server} {p : UnreadSession} (h : Counting userId s p) (m : UnreadMove) :
    Counting userId s (p.step D userId m) := by
  cases m with
  | send id senderId input =>
    have hstay : MembersStay p.server ((chat D).alone (createMessage id senderId input) p.server).2 :=
      alone_keeps (chat D) .refl (fun _ _ _ => .trans)
        (fun a s _ => .of_conversations (Server.act_conversations D a s)) (fun q s _ => .answer q s)
        (createMessage_within (A := fun _ => True) (B := fun _ => True) id senderId input trivial
          fun _ _ => trivial) p.server
    rcases createMessage_effect (D := D) id senderId input p.server with
      ⟨e, he⟩ | ⟨m, s', hs', hdocs, hsent⟩
    · simp only [UnreadSession.step, he]
      exact h
    · rw [hs'] at hstay
      simp only [UnreadSession.step, hs']
      refine ⟨h.members.trans hstay, fun k => ?_⟩
      have hcount : unreadCount k userId s' = unreadCount k userId p.server +
          [m.message].countP fun m => m.conversationId == k && m.senderId != userId := by
        rw [unreadCount, hdocs, List.countP_append]
        refine congrArg _ (List.countP_congr fun m' hm' => ?_)
        rw [List.mem_singleton.mp hm', isUnread, hsent]
        simp
      have hcounts := h.counts k
      dsimp only
      rw [List.countP_append, hcount]
      omega
  | read conversationId upToMessageId =>
    rcases @markMessagesRead_counts D userId conversationId upToMessageId p.server with
      ⟨e, he⟩ | ⟨r, s', hs', hconversations, hcount⟩
    · simp only [UnreadSession.step, he]
      exact h
    · simp only [UnreadSession.step, hs']
      refine ⟨h.members.trans (.of_conversations hconversations), fun k => ?_⟩
      have hcounts := h.counts k
      have hlost := hcount k
      dsimp only
      rw [List.countP_append]
      omega
  | pass n => exact ⟨h.members, h.counts⟩

theorem Counting.after {s : Server} {p : UnreadSession} (h : Counting userId s p) (moves : List UnreadMove) :
    Counting userId s (p.after D userId moves) := by
  induction moves generalizing p with
  | nil => exact h
  | cons m rest ih => exact ih (h.step m)

/-! ### What is shown -/

theorem listed_count {s : Server} {list : List ConversationWithUnreadCount}
    (h : ((chat D).alone (listConversations userId) s).1 = .ok list)
    {c : ConversationWithUnreadCount} (hc : c ∈ list) :
    IsMember c.conversation.conversation.id userId s ∧
      c.unreadCount = unreadCount c.conversation.conversation.id userId s := by
  refine ⟨?_, ?_⟩
  · obtain ⟨stored, hmem, hmember, hpopulated⟩ := mem_listed D h hc
    rw [hpopulated]
    exact ⟨stored, hmem, rfl, hmember⟩
  · rw [listConversations_alone] at h
    obtain rfl := Except.ok.inj h
    split at hc
    · cases hc
    · obtain ⟨populated, hpopulated, rfl⟩ := List.mem_map.mp hc
      have hid := List.mem_map_of_mem (f := fun c : PopulatedConversation => c.conversation.id) hpopulated
      exact countUnread_lookup hid userId s

/-- A conversation, and its badge. -/
def ClientConversation.badge (c : ClientConversation) : ObjectId × Option Nat := (c.id, c.unreadCount)

/-- No event changes a badge. -/
theorem on_badges (e : ServerEvent) (hook : UseConversations) :
    ((hook.on e).conversations.map ClientConversation.badge).Perm
      (hook.conversations.map ClientConversation.badge) := by
  cases e with
  | messageNew payload =>
    show ((hook.bumpConversationWithMessage payload).conversations.map _).Perm _
    rw [UseConversations.bump_conversations]
    exact Data.map_toFront_perm _ _ fun _ _ _ => rfl
  | userOnline payload => exact .of_eq List.map_map
  | userOffline payload => exact .of_eq List.map_map
  | _ => exact .refl _

theorem onAll_badges (events : List ServerEvent) (hook : UseConversations) :
    ((hook.onAll events).conversations.map ClientConversation.badge).Perm
      (hook.conversations.map ClientConversation.badge) := by
  induction events generalizing hook with
  | nil => exact .refl _
  | cons e rest ih => exact (ih (hook.on e)).trans (on_badges e hook)

/-- What is shown is what came with the refresh. -/
theorem badgesRight_iff {s : Server} {list : List ConversationWithUnreadCount}
    {hook : UseConversations} {events : List ServerEvent} :
    BadgesRight D userId s ((hook.refreshed list).onAll events) ↔ ∀ c ∈ list,
      some c.unreadCount = reportedUnread D userId c.conversation.conversation.id s := by
  have hperm := onAll_badges events (hook.refreshed list)
  have hbadges : (hook.refreshed list).conversations.map ClientConversation.badge =
      list.map fun c => (c.conversation.conversation.id, some c.unreadCount) := List.map_map
  rw [hbadges] at hperm
  constructor
  · intro h c hc
    obtain ⟨shown, hshown, hbadge⟩ :=
      List.mem_map.mp (hperm.mem_iff.mpr (List.mem_map_of_mem hc))
    obtain ⟨hid, hcount⟩ := Prod.mk.inj hbadge
    rw [← hid, ← hcount]
    exact h shown hshown
  · intro h shown hshown
    obtain ⟨c, hc, hbadge⟩ := List.mem_map.mp (hperm.mem_iff.mp (List.mem_map_of_mem hshown))
    obtain ⟨hid, hcount⟩ := Prod.mk.inj hbadge
    rw [← hid, ← hcount]
    exact h c hc

/-- **When the badges are right**: after a refresh, and whatever is sent and read since, exactly
if in every listed conversation others have written as many messages as the user has read
off. -/
theorem badges_iff (D : Deployment) (userId : ObjectId) (s : Server)
    (list : List ConversationWithUnreadCount)
    (hlist : ((chat D).alone (listConversations userId) s).1 = .ok list) (hook : UseConversations)
    (moves : List UnreadMove) (p : UnreadSession) (hp : p = .after D userId ⟨s, [], [], []⟩ moves) :
    BadgesRight D userId p.server ((hook.refreshed list).onAll p.events) ↔
      ∀ c ∈ list, Balanced userId c.conversation.conversation.id p := by
  have hcounting : Counting userId s p := by
    rw [hp]
    exact Counting.after ⟨.refl s, fun _ => rfl⟩ moves
  rw [badgesRight_iff]
  refine forall₂_congr fun c hc => ?_
  obtain ⟨hmember, hcount⟩ := listed_count hlist hc
  have hcounts := hcounting.counts c.conversation.conversation.id
  rw [reportedUnread_eq (hcounting.members _ _ hmember), Option.some.injEq, hcount]
  show unreadCount _ userId s = unreadCount _ userId p.server ↔ Balanced userId _ p
  unfold Balanced
  omega

end

/-! The third member of the group has two messages to read. -/

def badgeSession (moves : List UnreadMove) : UnreadSession :=
  .after .default (.ending 3) ⟨readServer, [], [], []⟩ moves

/-- The first writes once more. -/
def badgeSend : UnreadMove :=
  .send (.ending 7) (.ending 1) ⟨(ObjectId.ending 4).toString, "hi".toList⟩

/-- The older of the two messages is read. -/
def badgeRead : UnreadMove := .read (ObjectId.ending 4).toString (ObjectId.ending 5).toString

/-- One message more and one less: the badge is right by chance. -/
theorem badges_iff_even : ∃ list,
    ((chat .default).alone (listConversations (.ending 3)) readServer).1 = .ok list ∧
    BadgesRight .default (.ending 3) (badgeSession [badgeSend, badgeRead]).server
      ((UseConversations.mounted.refreshed list).onAll (badgeSession [badgeSend, badgeRead]).events) := by
  refine ⟨_, rfl, (badges_iff .default (.ending 3) readServer _ rfl .mounted [badgeSend, badgeRead]
    (badgeSession [badgeSend, badgeRead]) rfl).mpr fun c hc => ?_⟩
  rw [List.mem_singleton.mp hc]
  decide +kernel

/-- A message more, and the badge stays as it was. -/
theorem message_unbadged : ∃ list,
    ((chat .default).alone (listConversations (.ending 3)) readServer).1 = .ok list ∧
    ¬ BadgesRight .default (.ending 3) (badgeSession [badgeSend]).server
      ((UseConversations.mounted.refreshed list).onAll (badgeSession [badgeSend]).events) :=
  ⟨_, rfl, by decide +kernel⟩

end RealtimeChat
