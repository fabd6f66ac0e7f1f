import RealtimeChat.Conversations.Membership
import RealtimeChat.Handlers.Completion

/-! What `listConversations` reports as unread.

The count of each caller is derived from one status that all members share: a
message is `read` as soon as any reader's call has covered it. So a caller's count
is its own exactly if it has itself covered whatever of the conversation others
have (`unreadCount_iff`). -/
namespace RealtimeChat
open Data (Text)
open Async Async.System

/-- The calls, each run to completion, and time between them. `id` is the `_id` of what
is created. -/
inductive Operation where
  | createConversation (id userId : ObjectId) (input : CreateConversationInput)
  | createMessage (id senderId : ObjectId) (input : SendMessageInput)
  | markMessageDelivered (messageId : Text) (userId : ObjectId)
  | markMessagesRead (conversationId upToMessageId : Text) (userId : ObjectId)
  | pass (n : Nat)

/-- The messages that a call of `markMessagesRead` by the user covers: those of the others,
no later than the one it names. -/
def coveredBy (conversationId upToMessageId : Text) (userId : ObjectId) (s : Server) : List Message :=
  match ObjectId.cast conversationId, (ObjectId.cast upToMessageId).bind s.messages.find with
  | some id, some upTo => s.messages.docs.filter fun m =>
    m.conversationId == id && m.senderId != userId && decide (m.createdAt ≤ upTo.createdAt)
  | _, _ => []

/-- The state, and which reader has covered which message so far. -/
structure Progress where
  state : Server
  covered : List (ObjectId × ObjectId)

section
variable (D : Deployment)

def Progress.after (p : Progress) : Operation → Progress
  | .createConversation id userId input =>
    {p with state := ((chat D).alone (createConversation id userId input) p.state).2}
  | .createMessage id senderId input =>
    {p with state := ((chat D).alone (createMessage id senderId input) p.state).2}
  | .markMessageDelivered messageId userId =>
    {p with state := ((chat D).alone (markMessageDelivered D messageId userId) p.state).2}
  | .markMessagesRead conversationId upToMessageId userId =>
    match (chat D).alone (markMessagesRead D conversationId upToMessageId userId) p.state with
    | (.ok _, s) => ⟨s, (coveredBy conversationId upToMessageId userId p.state).map
        (fun m => (userId, m.id)) ++ p.covered⟩
    | (.error _, s) => ⟨s, p.covered⟩
  | .pass n => {p with state := (chat D).pass n p.state}

/-- After a whole sequence of calls. -/
def Progress.afterAll (p : Progress) (operations : List Operation) : Progress :=
  operations.foldl (Progress.after D) p

/-- The `unreadCount` of a conversation in what `listConversations` returns. -/
def reportedUnread (userId id : ObjectId) (s : Server) : Option Nat :=
  match ((chat D).alone (listConversations userId) s).1 with
  | .ok conversations =>
    (conversations.find? fun c => c.conversation.conversation.id == id).map (·.unreadCount)
  | .error _ => none

end

/-- How many messages of the conversation are by others and not covered by the user. -/
def uncovered (userId id : ObjectId) (p : Progress) : Nat :=
  p.state.messages.docs.countP fun m =>
    m.conversationId == id && m.senderId != userId && !p.covered.contains (userId, m.id)

/-! ### What is reported -/

theorem lookup_map (keys : List ObjectId) (f : ObjectId → Nat) (id : ObjectId) :
    (keys.map fun k => (k, f k)).lookup id = if id ∈ keys then some (f id) else none := by
  induction keys with
  | nil => rfl
  | cons k rest ih =>
    rw [List.map_cons, List.lookup_cons, ih]
    by_cases h : id = k
    · simp [h]
    · rw [beq_false_of_ne h]
      simp [h]

theorem countUnread_lookup {ids : List ObjectId} {id : ObjectId} (hid : id ∈ ids)
    (reader : ObjectId) (s : Server) : ((s.countUnread ids reader).lookup id).getD 0 =
      s.messages.docs.countP fun m =>
        m.conversationId == id && m.senderId != reader && m.status != .read := by
  unfold Server.countUnread
  rw [lookup_map]
  have hcount : (s.messages.docs.filter fun m => ids.contains m.conversationId &&
      m.senderId != reader && m.status != .read).countP (fun m => m.conversationId == id) =
      s.messages.docs.countP fun m =>
        m.conversationId == id && m.senderId != reader && m.status != .read := by
    rw [List.countP_filter]
    apply List.countP_congr
    intro m _
    simp only [Bool.and_eq_true, beq_iff_eq, List.contains_iff_mem]
    constructor
    · intro hmatch
      obtain ⟨h, ⟨_, hsender⟩, hstatus⟩ := hmatch
      exact ⟨⟨h, hsender⟩, hstatus⟩
    · intro hmatch
      obtain ⟨⟨h, hsender⟩, hstatus⟩ := hmatch
      exact ⟨h, ⟨h ▸ hid, hsender⟩, hstatus⟩
  split
  · exact hcount
  · rename_i hnone
    rw [← hcount, Option.getD_none, eq_comm, List.countP_eq_zero]
    intro m hm hmid
    exact hnone (List.mem_dedup.mpr (List.mem_map.mpr ⟨m, hm, beq_iff_eq.mp hmid⟩))

theorem reportedUnread_eq {D : Deployment} {userId id : ObjectId} {s : Server}
    (h : IsMember id userId s) : reportedUnread D userId id s =
      some (s.messages.docs.countP fun m =>
        m.conversationId == id && m.senderId != userId && m.status != .read) := by
  unfold reportedUnread
  rw [listConversations_alone]
  obtain ⟨c, hc, hid, hm⟩ := h
  -- The caller's conversations, as they are listed.
  generalize hlist : (D.byUpdate.sort (s.conversations.docs.filter
    fun c => c.members.contains userId)).map s.populateConversation = listed
  have hmem : s.populateConversation c ∈ listed := by
    rw [← hlist]
    refine List.mem_map_of_mem ((D.byUpdate.perm _).mem_iff.mpr (List.mem_filter.mpr ⟨hc, ?_⟩))
    exact List.contains_iff_mem.mpr hm
  have hids : id ∈ listed.map (·.conversation.id) := by
    rw [← hid]
    exact List.mem_map_of_mem hmem
  have hne : listed.isEmpty = false := by
    cases listed with
    | nil => cases hmem
    | cons first rest => rfl
  simp only [hne]
  show (List.find? _ (listed.map _)).map _ = _
  rw [List.find?_map, Option.map_map]
  obtain ⟨found, hfound⟩ : ∃ found, listed.find? (fun c => c.conversation.id == id) = some found := by
    refine Option.isSome_iff_exists.mp (List.find?_isSome.mpr ⟨_, hmem, ?_⟩)
    exact beq_iff_eq.mpr hid
  have hfoundId : found.conversation.id = id := by
    simpa using List.find?_some hfound
  show Option.map _ (listed.find? fun c => c.conversation.id == id) = _
  rw [hfound, Option.map_some, ← countUnread_lookup hids userId s, ← hfoundId]
  rfl

/-! ### When a message is `read` -/

/-- The messages are there as before, with the same ones `read`; new ones are not. -/
structure ReadKept (s s' : Server) : Prop where
  persists : ∀ m ∈ s.messages.docs, ∃ m' ∈ s'.messages.docs, m'.id = m.id
  origin : ∀ m' ∈ s'.messages.docs,
    (∃ m ∈ s.messages.docs, m.id = m'.id ∧ (m'.status = .read ↔ m.status = .read)) ∨
      m'.status ≠ .read ∧ ∀ m ∈ s.messages.docs, m.id ≠ m'.id

theorem ReadKept.of_messages {s s' : Server} (h : s'.messages = s.messages) : ReadKept s s' := by
  constructor
  · intro m hm
    exact ⟨m, h ▸ hm, rfl⟩
  · intro m hm
    exact .inl ⟨m, h ▸ hm, rfl, Iff.rfl⟩

theorem ReadKept.trans {a b c : Server} (h : ReadKept a b) (h' : ReadKept b c) : ReadKept a c := by
  constructor
  · intro m hm
    obtain ⟨m', hm', hid⟩ := h.persists m hm
    obtain ⟨m'', hm'', hid'⟩ := h'.persists m' hm'
    exact ⟨m'', hm'', hid'.trans hid⟩
  · intro m'' hm''
    rcases h'.origin m'' hm'' with ⟨m', hm', hid', hread'⟩ | ⟨hread, hnew⟩
    · rcases h.origin m' hm' with ⟨m, hm, hid, hread⟩ | ⟨hread, hnew⟩
      · exact .inl ⟨m, hm, hid.trans hid', hread'.trans hread⟩
      · exact .inr ⟨fun h => hread (hread'.mp h), fun m hm => hid' ▸ hnew m hm⟩
    · refine .inr ⟨hread, fun m hm heq => ?_⟩
      obtain ⟨m', hm', hid⟩ := h.persists m hm
      exact hnew m' hm' (hid.trans heq)

/-- Setting the status of unread messages to something short of `read`. -/
theorem ReadKept.setStatus {s : Server} {p : Message → Bool} {status : MessageStatus} (now : Nat)
    (hp : ∀ m ∈ s.messages.docs, p m = true → m.status ≠ .read) (hstatus : status ≠ .read) :
    ReadKept s (s.setStatus p status now) := by
  constructor
  · intro m hm
    refine ⟨_, List.mem_map_of_mem hm, ?_⟩
    split <;> rfl
  · intro m' hm'
    obtain ⟨m, hm, rfl⟩ := List.mem_map.mp hm'
    refine .inl ⟨m, hm, ?_, ?_⟩
    · split <;> rfl
    · split
      · rename_i hpm
        exact iff_of_false hstatus (hp m hm hpm)
      · exact Iff.rfl

/-- Each message is `read` exactly if somebody has covered it. -/
structure Receipted (p : Progress) : Prop where
  read : ∀ m ∈ p.state.messages.docs, m.status = .read ↔ ∃ reader, (reader, m.id) ∈ p.covered
  known : ∀ reader id, (reader, id) ∈ p.covered → ∃ m ∈ p.state.messages.docs, m.id = id

theorem Receipted.kept {p : Progress} (h : Receipted p) {s : Server} (hs : ReadKept p.state s) :
    Receipted {p with state := s} := by
  constructor
  · intro m' hm'
    rcases hs.origin m' hm' with ⟨m, hm, hid, hread⟩ | ⟨hread, hnew⟩
    · rw [hread, h.read m hm, hid]
    · apply iff_of_false hread
      intro ⟨reader, hcovered⟩
      obtain ⟨m, hm, hid⟩ := h.known reader m'.id hcovered
      exact hnew m hm hid
  · intro reader id hcovered
    obtain ⟨m, hm, rfl⟩ := h.known reader id hcovered
    exact hs.persists m hm

/-! ### What each call keeps -/

section
variable {D : Deployment}

def SetsNoStatus (q : Query) : Prop :=
  (∀ id status now, q ≠ .messageSave id status now) ∧ ∀ ids now, q ≠ .messageUpdateMany ids now

theorem ReadKept.of_within {β : Type} {p : Chat β} {A : Action → Prop}
    (hp : p.Within A SetsNoStatus) (s : Server) : ReadKept s ((chat D).alone p s).2 := by
  refine alone_keeps (chat D) (fun s => .of_messages rfl) (fun _ _ _ => .trans) ?_ ?_ hp s
  · exact fun a s _ => .of_messages (Server.act_messages D a s)
  · intro q s hq
    show ReadKept s (Server.answer D q s).2
    cases Server.answer_messages D q s with
    | same h => exact .of_messages h
    | created hcast hanswer h =>
      obtain ⟨hdocs, hfresh⟩ := Data.Collection.insert_eq_some h
      constructor
      · intro m hm
        exact ⟨m, by rw [hdocs]; exact List.mem_append_left _ hm, rfl⟩
      · intro m hm
        rw [hdocs, List.mem_append, List.mem_singleton] at hm
        rcases hm with hm | rfl
        · exact .inl ⟨m, hm, rfl, Iff.rfl⟩
        · exact .inr ⟨by simp, hfresh⟩
    | saved h => exact absurd rfl (hq.1 _ _ _)
    | updated h => exact absurd rfl (hq.2 _ _)

theorem markMessageDelivered_readKept (messageId : Text) (userId : ObjectId) (s : Server) :
    ReadKept s ((chat D).alone (markMessageDelivered D messageId userId) s).2 := by
  cases hid : ObjectId.cast messageId with
  | none =>
    rw [markMessageDelivered_invalid D hid]
    exact .of_messages rfl
  | some id =>
    rw [markMessageDelivered_alone D hid]
    cases hfind : s.messages.find id with
    | none => exact .of_messages rfl
    | some message =>
      show ReadKept s (if _ then _ else _ : Except Failure StatusUpdateResult × Server).2
      split
      · exact .of_messages rfl
      · split
        · rename_i hsent
          refine ReadKept.setStatus _ (fun m hm hmid => ?_) (by simp)
          have hmem := (Data.Collection.find_eq_some.mp hfind).1
          rw [s.messages.eq_of_key hm hmem (beq_iff_eq.mp hmid), hsent]
          simp
        · exact .of_messages rfl

/-- What is `read` after a call by which `covered` has been covered. -/
structure Reading (s s' : Server) (covered : List Message) : Prop where
  persists : ∀ m ∈ s.messages.docs, ∃ m' ∈ s'.messages.docs, m'.id = m.id
  origin : ∀ m' ∈ s'.messages.docs, ∃ m ∈ s.messages.docs, m.id = m'.id ∧
    (m'.status = .read ↔ m.status = .read ∨ m ∈ covered)
  subset : covered ⊆ s.messages.docs

theorem Reading.of_unread {s : Server} {covered : List Message} (hsubset : covered ⊆ s.messages.docs)
    (h : ∀ m ∈ covered, m.status = .read) : Reading s s covered := by
  refine ⟨fun m hm => ⟨m, hm, rfl⟩, fun m hm => ⟨m, hm, rfl, ?_⟩, hsubset⟩
  exact (or_iff_left_of_imp (h m)).symm

theorem Reading.setStatus {s : Server} {p : Message → Bool} {covered : List Message} (now : Nat)
    (hsubset : covered ⊆ s.messages.docs) (hp : ∀ m ∈ s.messages.docs, p m = true ↔
      m ∈ covered ∧ m.status ≠ .read) : Reading s (s.setStatus p .read now) covered := by
  refine ⟨fun m hm => ?_, fun m' hm' => ?_, hsubset⟩
  · refine ⟨_, List.mem_map_of_mem hm, ?_⟩
    split <;> rfl
  · obtain ⟨m, hm, rfl⟩ := List.mem_map.mp hm'
    refine ⟨m, hm, ?_, ?_⟩
    · split <;> rfl
    · by_cases hread : m.status = .read
      · split <;> simp [hread]
      · by_cases hpm : p m = true
        · simp [hpm, ((hp m hm).mp hpm).1]
        · have hnot : m ∉ covered := fun hc => hpm ((hp m hm).mpr ⟨hc, hread⟩)
          simp [hpm, hread, hnot]

/-- What a call of `markMessagesRead` finds unread is what it covers, bar what is `read`. -/
theorem mem_coveredBy {conversationId upToMessageId : Text} {userId id upTo : ObjectId}
    {message : Message} {s : Server} (hid : ObjectId.cast conversationId = some id)
    (hupTo : ObjectId.cast upToMessageId = some upTo) (hfind : s.messages.find upTo = some message)
    {m : Message} : m ∈ coveredBy conversationId upToMessageId userId s ↔
      m ∈ s.messages.docs ∧ (m.conversationId = id ∧ m.senderId ≠ userId) ∧
        m.createdAt ≤ message.createdAt := by
  simp only [coveredBy, hid, hupTo, Option.bind_some, hfind, List.mem_filter, Bool.and_eq_true,
    beq_iff_eq, bne_iff_ne, decide_eq_true_eq, ne_eq]

/-- A call of `markMessagesRead` makes `read` exactly what it covers, or fails. -/
theorem markMessagesRead_effect (conversationId upToMessageId : Text) (userId : ObjectId)
    (s : Server) :
    (∃ e, (chat D).alone (markMessagesRead D conversationId upToMessageId userId) s =
      (.error e, s)) ∨
    ∃ r s', (chat D).alone (markMessagesRead D conversationId upToMessageId userId) s = (.ok r, s') ∧
      Reading s s' (coveredBy conversationId upToMessageId userId s) := by
  cases hid : ObjectId.cast conversationId with
  | none => exact .inl ⟨_, markMessagesRead_invalid D (.inl hid) userId s⟩
  | some id =>
    cases hupTo : ObjectId.cast upToMessageId with
    | none => exact .inl ⟨_, markMessagesRead_invalid D (.inr hupTo) userId s⟩
    | some upTo =>
      rw [markMessagesRead_alone D hid hupTo]
      split
      · exact .inl ⟨_, rfl⟩
      · cases hmessage : (s.messages.find upTo).filter fun m => m.conversationId == id with
        | none => exact .inl ⟨_, rfl⟩
        | some message =>
          have hcovered := @mem_coveredBy _ _ userId _ _ _ s hid hupTo
            (Option.filter_eq_some_iff.mp hmessage).1
          have hsubset : coveredBy conversationId upToMessageId userId s ⊆ s.messages.docs :=
            fun m hm => (hcovered.mp hm).1
          have hunread : ∀ m ∈ s.messages.docs, m.id ∈ (s.messages.docs.filter
              (Server.matchesUnread id userId message.createdAt)).map Message.id ↔
              m ∈ coveredBy conversationId upToMessageId userId s ∧ m.status ≠ .read := by
            intro m hm
            rw [List.mem_map, hcovered]
            constructor
            · intro hlisted
              obtain ⟨m', hm', heq⟩ := hlisted
              obtain ⟨hmem, hmatch⟩ := List.mem_filter.mp hm'
              rw [← s.messages.eq_of_key hmem hm heq]
              simp only [Server.matchesUnread, Bool.and_eq_true, beq_iff_eq, bne_iff_ne,
                decide_eq_true_eq] at hmatch
              exact ⟨⟨hmem, hmatch.1.1, hmatch.2⟩, hmatch.1.2⟩
            · intro ⟨⟨_, hothers, hdate⟩, hstatus⟩
              refine ⟨m, List.mem_filter.mpr ⟨hm, ?_⟩, rfl⟩
              simp only [Server.matchesUnread, Bool.and_eq_true, beq_iff_eq, bne_iff_ne,
                decide_eq_true_eq]
              exact ⟨⟨hothers, hstatus⟩, hdate⟩
          dsimp only
          split
          · rename_i hnone
            refine .inr ⟨_, _, rfl, .of_unread hsubset fun m hm => ?_⟩
            by_contra hread
            have hmem := (hunread m (hsubset hm)).mpr ⟨hm, hread⟩
            rw [List.isEmpty_iff.mp hnone] at hmem
            cases hmem
          · refine .inr ⟨_, _, rfl, .setStatus _ hsubset fun m hm => ?_⟩
            rw [List.contains_iff_mem, hunread m hm]

/-- After a call of `markMessagesRead`, what it covers is `read`, and recorded. -/
theorem Receipted.markMessagesRead {p : Progress} (h : Receipted p)
    (conversationId upToMessageId : Text) (userId : ObjectId) :
    Receipted (p.after D (.markMessagesRead conversationId upToMessageId userId)) := by
  unfold Progress.after
  rcases markMessagesRead_effect (D := D) conversationId upToMessageId userId p.state with
    ⟨e, he⟩ | ⟨r, s', hr, hreading⟩
  · simp only [he]
    exact h
  · simp only [hr]
    constructor
    · intro m' hm'
      obtain ⟨m, hm, hid, hread⟩ := hreading.origin m' hm'
      rw [hread, h.read m hm, ← hid]
      constructor
      · intro h'
        rcases h' with ⟨reader, hold⟩ | hnew
        · exact ⟨reader, List.mem_append_right _ hold⟩
        · exact ⟨userId, List.mem_append_left _ (List.mem_map.mpr ⟨m, hnew, rfl⟩)⟩
      · intro ⟨reader, hmem⟩
        rcases List.mem_append.mp hmem with hnew | hold
        · obtain ⟨m₁, hm₁, heq⟩ := List.mem_map.mp hnew
          have hsame := p.state.messages.eq_of_key (hreading.subset hm₁) hm (Prod.mk.inj heq).2
          exact .inr (hsame ▸ hm₁)
        · exact .inl ⟨reader, hold⟩
    · intro reader id hmem
      rcases List.mem_append.mp hmem with hnew | hold
      · obtain ⟨m, hm, heq⟩ := List.mem_map.mp hnew
        rw [← (Prod.mk.inj heq).2]
        exact hreading.persists m (hreading.subset hm)
      · obtain ⟨m, hm, rfl⟩ := h.known reader id hold
        exact hreading.persists m hm

theorem createMessage_setsNoStatus (id senderId : ObjectId) (input : SendMessageInput) :
    (createMessage id senderId input).Within (fun _ => True) SetsNoStatus := by
  apply createMessage_within id senderId input trivial
  intro q hq
  constructor
  · intro id status now h'
    subst h'
    exact hq
  · intro ids now h'
    subst h'
    exact hq

/-- One call keeps the receipts. -/
theorem Receipted.after {p : Progress} (h : Receipted p) (operation : Operation) :
    Receipted (p.after D operation) := by
  cases operation with
  | createConversation id userId input =>
    refine h.kept (ReadKept.of_within (A := fun _ => True) ?_ _)
    exact createConversation_within id userId input trivial (by simp [SetsNoStatus])
      (by simp [SetsNoStatus])
  | createMessage id senderId input =>
    exact h.kept (ReadKept.of_within (createMessage_setsNoStatus id senderId input) _)
  | markMessageDelivered messageId userId => exact h.kept (markMessageDelivered_readKept _ _ _)
  | markMessagesRead conversationId upToMessageId userId => exact h.markMessagesRead _ _ _
  | pass n => exact h.kept (.of_messages rfl)

/-- So does a whole sequence of them. -/
theorem Receipted.afterAll {p : Progress} (h : Receipted p) (operations : List Operation) :
    Receipted (p.afterAll D operations) := by
  induction operations generalizing p with
  | nil => exact h
  | cons operation rest ih => exact ih (h.after operation)

theorem countP_eq_iff {α : Type} {p q : α → Bool} {l : List α}
    (h : ∀ a ∈ l, p a = true → q a = true) :
    l.countP p = l.countP q ↔ ∀ a ∈ l, q a = true → p a = true := by
  induction l with
  | nil => simp
  | cons a rest ih =>
    have hrest : ∀ b ∈ rest, p b = true → q b = true := fun b hb => h b (List.mem_cons_of_mem a hb)
    have hle := List.countP_mono_left hrest
    have ha := h a List.mem_cons_self
    rw [List.forall_mem_cons, ← ih hrest, List.countP_cons, List.countP_cons]
    by_cases hp : p a = true
    · simp [hp, ha hp]
    · by_cases hq : q a = true
      · simp only [hp, hq]
        constructor
        · intro heq
          simp at heq
          omega
        · intro hboth
          exact absurd (hboth.1 trivial) (by simp)
      · simp [hp, hq]

/-- **The caller's own count.** After any sequence of calls on an empty database, what
`listConversations` reports as unread is what the caller has not itself covered, exactly
if the caller has covered every message of the others that anybody has. -/
theorem unreadCount_iff (users : Users) (clock : Nat) (operations : List Operation)
    (userId id : ObjectId) (p : Progress)
    (hp : p = Progress.afterAll D ⟨.boot users .empty .empty clock, []⟩ operations)
    (h : IsMember id userId p.state) :
    reportedUnread D userId id p.state = some (uncovered userId id p) ↔
      ∀ m ∈ p.state.messages.docs, m.conversationId = id → m.senderId ≠ userId →
        (∃ reader, (reader, m.id) ∈ p.covered) → (userId, m.id) ∈ p.covered := by
  have hstart : Receipted ⟨.boot users .empty .empty clock, []⟩ := by
    constructor
    · intro m hm
      cases hm
    · intro reader id hmem
      cases hmem
  have hreceipts : Receipted p := hp ▸ hstart.afterAll operations
  rw [reportedUnread_eq h, Option.some.injEq, uncovered, countP_eq_iff]
  · apply forall₂_congr
    intro m hm
    simp only [Bool.and_eq_true, beq_iff_eq, bne_iff_ne, ne_eq, Bool.not_eq_true',
      List.contains_eq_mem, decide_eq_false_iff_not, hreceipts.read m hm]
    constructor
    · intro hsame hconversation hsender hread
      by_contra hown
      exact (hsame ⟨⟨hconversation, hsender⟩, hown⟩).2 hread
    · intro hown hunread
      obtain ⟨⟨hconversation, hsender⟩, hnot⟩ := hunread
      exact ⟨⟨hconversation, hsender⟩, fun hread => hnot (hown hconversation hsender hread)⟩
  · intro m hm hunread
    simp only [Bool.and_eq_true, beq_iff_eq, bne_iff_ne, ne_eq, Bool.not_eq_true',
      List.contains_eq_mem, decide_eq_false_iff_not] at hunread ⊢
    exact ⟨hunread.1, fun hown => hunread.2 ((hreceipts.read m hm).mpr ⟨userId, hown⟩)⟩

end

/-! Three users in a group. One writes, another reads. -/

def groupCalls : List Operation :=
  let spelled (d : Fin 16) := (ObjectId.ending d).toString
  [.createConversation (.ending 4) (.ending 1)
      ⟨.group, some "team".toList, [spelled 2, spelled 3]⟩,
    .createMessage (.ending 5) (.ending 1) ⟨spelled 4, "hi".toList⟩,
    .markMessagesRead (spelled 4) (spelled 5) (.ending 2)]

def groupProgress : Progress :=
  Progress.afterAll .default ⟨.boot .empty .empty .empty 0, []⟩ groupCalls

/-- The reader is told the truth. -/
theorem unreadCount_iff_group : reportedUnread .default (.ending 2) (.ending 4) groupProgress.state =
    some (uncovered (.ending 2) (.ending 4) groupProgress) := by
  have hmember : IsMember (.ending 4) (.ending 2) groupProgress.state :=
    findOne_isSome.mp (by decide +kernel)
  have hcovered : ∀ m ∈ groupProgress.state.messages.docs,
      (ObjectId.ending 2, m.id) ∈ groupProgress.covered := by
    decide +kernel
  exact (unreadCount_iff .empty 0 groupCalls _ _ groupProgress rfl hmember).mpr
    fun m hm _ _ _ => hcovered m hm

/-- The third has read nothing, and is told that nothing is unread. -/
theorem group_miscounted : ¬ (reportedUnread .default (.ending 3) (.ending 4) groupProgress.state =
    some (uncovered (.ending 3) (.ending 4) groupProgress)) := by
  decide +kernel

end RealtimeChat
