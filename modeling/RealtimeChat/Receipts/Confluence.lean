import RealtimeChat.Data.Joins
import RealtimeChat.Receipts.ReadUpTo
import RealtimeChat.Receipts.StatusOrder

/-! Receipts in any order.

A call of `markMessageDelivered` or `markMessagesRead`, run to completion, joins a
status onto each message: which one depends on nothing that receipts change. So the
calls commute and absorb each other, and what a whole list of them leaves depends
only on which calls are in it (`receipts_confluent`). -/
namespace RealtimeChat
open Data (Text joinAll)
open Async Async.System

/-- `sent < delivered < read` -/
instance : LinearOrder MessageStatus := .lift' MessageStatus.rank fun a b => by
  cases a <;> cases b <;> decide

theorem MessageStatus.sent_le (status : MessageStatus) : .sent ≤ status := Nat.zero_le _

theorem MessageStatus.le_read (status : MessageStatus) : status ≤ .read := by
  cases status <;> decide

/-- A call of one of the two. -/
inductive Receipt where
  | delivered (messageId : Text) (userId : ObjectId)
  | read (conversationId upToMessageId : Text) (userId : ObjectId)
deriving DecidableEq

/-- What receipts leave of a message as it is. -/
def Message.outline (m : Message) : Message := {m with status := .sent, updatedAt := 0}

instance (id userId : ObjectId) (s : Server) : Decidable (IsMember id userId s) :=
  inferInstanceAs (Decidable (∃ c ∈ s.conversations.docs, _))

/-- The call goes through, and is about the message. -/
def Receipt.Covers (s : Server) (m : Message) : Receipt → Prop
  | .delivered messageId userId =>
    ObjectId.cast messageId = some m.id ∧ IsMember m.conversationId userId s
  | .read conversationId upToMessageId userId =>
    ObjectId.cast conversationId = some m.conversationId ∧ IsMember m.conversationId userId s ∧
      m.senderId ≠ userId ∧ ∃ upTo ∈ s.messages.docs, ObjectId.cast upToMessageId = some upTo.id ∧
        upTo.conversationId = m.conversationId ∧ m.createdAt ≤ upTo.createdAt

instance (s : Server) (m : Message) (r : Receipt) : Decidable (r.Covers s m) := by
  cases r <;> unfold Receipt.Covers <;> infer_instance

def Receipt.status : Receipt → MessageStatus
  | .delivered _ _ => .delivered
  | .read _ _ _ => .read

/-- What the call joins onto the status of the message. -/
def Receipt.target (s : Server) (m : Message) (r : Receipt) : MessageStatus :=
  if r.Covers s m then r.status else .sent

section
variable (D : Deployment)

/-- One call to completion: the `messageIds` it returns, and the state after it. -/
def Receipt.call (r : Receipt) (s : Server) : List ObjectId × Server :=
  match r with
  | .delivered messageId userId =>
    ([], ((chat D).alone (markMessageDelivered D messageId userId) s).2)
  | .read conversationId upToMessageId userId =>
    match (chat D).alone (markMessagesRead D conversationId upToMessageId userId) s with
    | (.ok r, s') => (r.messageIds, s')
    | (.error _, s') => ([], s')

/-- A list of calls, each a while after the one before: all `messageIds` returned, and the
state after them. -/
def callAll (s : Server) : List (Nat × Receipt) → List ObjectId × Server
  | [] => ([], s)
  | (n, r) :: rest =>
    let first := r.call D ((chat D).pass n s)
    let others := callAll first.2 rest
    (first.1 ++ others.1, others.2)

end

/-! ### What receipts leave alone -/

/-- The same conversations, and the same messages but for what receipts touch. -/
structure Framed (s s' : Server) : Prop where
  conversations : s'.conversations = s.conversations
  outlines : s'.messages.docs.map Message.outline = s.messages.docs.map Message.outline

theorem Framed.refl (s : Server) : Framed s s := ⟨rfl, rfl⟩

theorem Framed.trans {a b c : Server} (h : Framed a b) (h' : Framed b c) : Framed a c :=
  ⟨h'.conversations.trans h.conversations, h'.outlines.trans h.outlines⟩

theorem Framed.symm {s s' : Server} (h : Framed s s') : Framed s' s :=
  ⟨h.conversations.symm, h.outlines.symm⟩

theorem Framed.setStatus (p : Message → Bool) (status : MessageStatus) (now : Nat) (s : Server) :
    Framed s (s.setStatus p status now) := by
  refine ⟨rfl, ?_⟩
  show (s.messages.docs.map _).map _ = _
  rw [List.map_map]
  apply List.map_congr_left
  intro m _
  rw [Function.comp_apply]
  split <;> rfl

theorem Framed.mem {s s' : Server} (h : Framed s s') {m : Message} (hm : m ∈ s.messages.docs) :
    ∃ m' ∈ s'.messages.docs, m'.outline = m.outline := by
  have hmem : m.outline ∈ s'.messages.docs.map Message.outline := by
    rw [h.outlines]
    exact List.mem_map_of_mem hm
  exact List.mem_map.mp hmem

theorem outline_eq {m m' : Message} (h : m'.outline = m.outline) : m'.id = m.id ∧
    m'.conversationId = m.conversationId ∧ m'.senderId = m.senderId ∧ m'.createdAt = m.createdAt := by
  simp only [Message.outline, Message.mk.injEq] at h
  exact ⟨h.1, h.2.1, h.2.2.1, h.2.2.2.2.2.1⟩

theorem Receipt.Covers.framed {s s' : Server} {m m' : Message} {r : Receipt} (h : r.Covers s m)
    (hs : Framed s s') (hm : m'.outline = m.outline) : r.Covers s' m' := by
  obtain ⟨hid, hconversation, hsender, hdate⟩ := outline_eq hm
  have hmember : ∀ id userId, IsMember id userId s → IsMember id userId s' := by
    intro id userId h
    rwa [IsMember, hs.conversations]
  cases r with
  | delivered messageId userId =>
    obtain ⟨hcast, h⟩ := h
    refine ⟨hid ▸ hcast, ?_⟩
    rw [hconversation]
    exact hmember _ _ h
  | read conversationId upToMessageId userId =>
    obtain ⟨hcast, h, hothers, upTo, hupTo, hcast', hin, hle⟩ := h
    obtain ⟨upTo', hupTo', houtline⟩ := hs.mem hupTo
    obtain ⟨hid', hconversation', _, hdate'⟩ := outline_eq houtline
    refine ⟨?_, ?_, ?_, upTo', hupTo', ?_, ?_, ?_⟩
    · rw [hconversation, hcast]
    · rw [hconversation]
      exact hmember _ _ h
    · rwa [hsender]
    · rw [hid', hcast']
    · rw [hconversation', hconversation, hin]
    · rwa [hdate, hdate']

theorem Receipt.target_framed {s s' : Server} {m m' : Message} (hs : Framed s s')
    (hm : m'.outline = m.outline) (r : Receipt) : r.target s' m' = r.target s m := by
  have hcovers : r.Covers s' m' ↔ r.Covers s m :=
    ⟨fun h => h.framed hs.symm hm.symm, fun h => h.framed hs hm⟩
  simp only [Receipt.target, hcovers]

/-! ### One call -/

/-- What happens to each message: its status is joined with `joined`, and it is returned if
that makes it `read`. -/
structure Joins (joined : Message → MessageStatus) (s : Server) (after : List ObjectId × Server) :
    Prop where
  framed : Framed s after.2
  each : ∀ m ∈ s.messages.docs, ∃ m' ∈ after.2.messages.docs, m'.outline = m.outline ∧
    m'.status = m.status ⊔ joined m ∧
    after.1.count m.id = if m.status ≠ .read ∧ m'.status = .read then 1 else 0

/-- Every message there afterwards was there before. -/
theorem Joins.origin {joined : Message → MessageStatus} {s : Server} {after : List ObjectId × Server}
    (h : Joins joined s after) {m' : Message} (hm' : m' ∈ after.2.messages.docs) :
    ∃ m ∈ s.messages.docs, m'.outline = m.outline ∧ m'.status = m.status ⊔ joined m := by
  obtain ⟨m, hm, houtline⟩ := h.framed.symm.mem hm'
  obtain ⟨m'', hm'', houtline', hstatus, _⟩ := h.each m hm
  obtain rfl : m'' = m' :=
    after.2.messages.eq_of_key hm'' hm' (outline_eq (houtline'.trans houtline)).1
  exact ⟨m, hm, houtline', hstatus⟩

theorem Joins.idle {joined : Message → MessageStatus} {s : Server}
    (h : ∀ m ∈ s.messages.docs, joined m ≤ m.status) : Joins joined s ([], s) := by
  refine ⟨.refl s, fun m hm => ⟨m, hm, rfl, (sup_eq_left.mpr (h m hm)).symm, ?_⟩⟩
  rw [if_neg fun hboth => hboth.1 hboth.2]
  rfl

theorem Joins.setStatus {joined : Message → MessageStatus} {s : Server} {p : Message → Bool}
    {status : MessageStatus} {ids : List ObjectId} (now : Nat)
    (hset : ∀ m ∈ s.messages.docs, p m = true → joined m = status ∧ m.status ≤ status)
    (hkept : ∀ m ∈ s.messages.docs, p m = false → joined m ≤ m.status)
    (hcount : ∀ m ∈ s.messages.docs, ids.count m.id = if p m = true ∧ status = .read then 1 else 0)
    (hunread : ∀ m ∈ s.messages.docs, p m = true → m.status ≠ .read) :
    Joins joined s (ids, s.setStatus p status now) := by
  refine ⟨.setStatus p status now s, fun m hm => ⟨_, List.mem_map_of_mem hm, ?_⟩⟩
  rw [hcount m hm]
  by_cases hp : p m = true
  · obtain ⟨hjoined, hle⟩ := hset m hm hp
    simp only [hp, if_true, true_and]
    refine ⟨rfl, ?_, ?_⟩
    · rw [hjoined, sup_eq_right.mpr hle]
    · simp only [hunread m hm hp, ne_eq, not_false_eq_true, true_and]
  · have hle := hkept m hm (Bool.eq_false_iff.mpr hp)
    simp only [hp]
    refine ⟨rfl, (sup_eq_left.mpr hle).symm, ?_⟩
    simp only [Bool.false_eq_true, false_and, if_false]
    rw [if_neg fun hboth => hboth.1 hboth.2]

section
variable (D : Deployment)

theorem Receipt.target_sent {s : Server} {m : Message} {r : Receipt} (h : ¬ r.Covers s m) :
    r.target s m ≤ m.status := by
  rw [Receipt.target, if_neg h]
  exact m.status.sent_le

/-- A call of `markMessageDelivered` fails and covers nothing, or goes through for the one
message that it covers. -/
theorem markMessageDelivered_effect (messageId : Text) (userId : ObjectId) (s : Server) :
    (∃ e, (chat D).alone (markMessageDelivered D messageId userId) s = (.error e, s) ∧
      ∀ m ∈ s.messages.docs, ¬ (Receipt.delivered messageId userId).Covers s m) ∨
    ∃ message ∈ s.messages.docs, (Receipt.delivered messageId userId).Covers s message ∧
      (∀ m ∈ s.messages.docs, (Receipt.delivered messageId userId).Covers s m → m = message) ∧
      (chat D).alone (markMessageDelivered D messageId userId) s =
        if message.status = .sent then
          (.ok ⟨{message with status := .delivered, updatedAt := s.clock},
            message.conversationId.toString⟩,
            s.setStatus (fun m => m.id == message.id) .delivered s.clock)
        else (.ok ⟨message, message.conversationId.toString⟩, s) := by
  cases hid : ObjectId.cast messageId with
  | none =>
    refine .inl ⟨_, markMessageDelivered_invalid D hid userId s, fun m _ hcovers => ?_⟩
    have hcast : ObjectId.cast messageId = some m.id := hcovers.1
    rw [hid] at hcast
    cases hcast
  | some id =>
    have hcovered : ∀ m, (Receipt.delivered messageId userId).Covers s m → m.id = id := by
      intro m hcovers
      have hcast : ObjectId.cast messageId = some m.id := hcovers.1
      rw [hid] at hcast
      exact (Option.some.inj hcast).symm
    rw [markMessageDelivered_alone D hid]
    cases hfind : s.messages.find id with
    | none =>
      refine .inl ⟨_, rfl, fun m hm hcovers => ?_⟩
      exact Data.Collection.find_eq_none.mp hfind m hm (hcovered m hcovers)
    | some message =>
      obtain ⟨hmessage, rfl⟩ := Data.Collection.find_eq_some.mp hfind
      have hsame : ∀ m ∈ s.messages.docs,
          (Receipt.delivered messageId userId).Covers s m → m = message :=
        fun m hm hcovers => s.messages.eq_of_key hm hmessage (hcovered m hcovers)
      by_cases hmember : IsMember message.conversationId userId s
      · refine .inr ⟨message, hmessage, ⟨hid, hmember⟩, hsame, ?_⟩
        simp only [findOne_isSome.mpr hmember, Bool.not_true, Bool.false_eq_true, if_false]
      · refine .inl ⟨.app "Message not found" 404, ?_, fun m hm hcovers => ?_⟩
        · simp only [mt findOne_isSome.mp hmember, Bool.not_false, if_true]
        · exact hmember (hsame m hm hcovers ▸ hcovers.2)

theorem delivered_joins (messageId : Text) (userId : ObjectId) (s : Server) :
    Joins (fun m => (Receipt.delivered messageId userId).target s m) s
      ((Receipt.delivered messageId userId).call D s) := by
  rcases markMessageDelivered_effect D messageId userId s with
    ⟨e, he, hnone⟩ | ⟨message, hmessage, hcovers, hsame, heq⟩
  · have hcall : (Receipt.delivered messageId userId).call D s = ([], s) := by
      rw [Receipt.call, he]
    rw [hcall]
    exact .idle fun m hm => Receipt.target_sent (hnone m hm)
  · by_cases hsent : message.status = .sent
    · have hcall : (Receipt.delivered messageId userId).call D s =
          ([], s.setStatus (fun m => m.id == message.id) .delivered s.clock) := by
        rw [Receipt.call, heq, if_pos hsent]
      rw [hcall]
      have hpicked : ∀ m ∈ s.messages.docs, (m.id == message.id) = true → m = message :=
        fun m hm heq => s.messages.eq_of_key hm hmessage (beq_iff_eq.mp heq)
      refine .setStatus _ (fun m hm hp => ?_) (fun m hm hp => ?_) (fun m _ => ?_) fun m hm hp => ?_
      · obtain rfl := hpicked m hm hp
        refine ⟨if_pos hcovers, ?_⟩
        rw [hsent]
        exact MessageStatus.sent_le _
      · refine Receipt.target_sent fun hcovers => ?_
        rw [hsame m hm hcovers, beq_self_eq_true] at hp
        cases hp
      · simp
      · rw [hpicked m hm hp, hsent]
        decide
    · have hcall : (Receipt.delivered messageId userId).call D s = ([], s) := by
        rw [Receipt.call, heq, if_neg hsent]
      rw [hcall]
      refine .idle fun m hm => ?_
      by_cases hcovered : (Receipt.delivered messageId userId).Covers s m
      · obtain rfl := hsame m hm hcovered
        rw [Receipt.target, if_pos hcovered]
        show MessageStatus.delivered ≤ m.status
        cases hstatus : m.status with
        | sent => exact absurd hstatus hsent
        | delivered => exact le_rfl
        | read => exact MessageStatus.le_read _
      · exact Receipt.target_sent hcovered

/-- What a call that goes through has found. -/
theorem markMessagesRead_ok {conversationId upToMessageId : Text} {userId : ObjectId}
    {s s' : Server} {r : MessagesRead}
    (h : (chat D).alone (markMessagesRead D conversationId upToMessageId userId) s = (.ok r, s')) :
    ∃ id upTo, ObjectId.cast conversationId = some id ∧ ObjectId.cast upToMessageId = some upTo.id ∧
      IsMember id userId s ∧ upTo ∈ s.messages.docs ∧ upTo.conversationId = id := by
  cases hid : ObjectId.cast conversationId with
  | none =>
    rw [markMessagesRead_invalid D (.inl hid)] at h
    cases h
  | some id =>
    cases hupTo : ObjectId.cast upToMessageId with
    | none =>
      rw [markMessagesRead_invalid D (.inr hupTo)] at h
      cases h
    | some upToId =>
      rw [markMessagesRead_alone D hid hupTo] at h
      split at h
      · cases h
      · rename_i hmember
        cases hmessage : (s.messages.find upToId).filter fun m => m.conversationId == id with
        | none =>
          rw [hmessage] at h
          cases h
        | some upTo =>
          obtain ⟨hfind, hin⟩ := Option.filter_eq_some_iff.mp hmessage
          obtain ⟨hmem, rfl⟩ := Data.Collection.find_eq_some.mp hfind
          refine ⟨id, upTo, rfl, rfl, findOne_isSome.mp ?_, hmem, beq_iff_eq.mp hin⟩
          simpa [Option.isSome_iff_ne_none] using hmember

/-- A call that fails covers nothing. -/
theorem read_fails {conversationId upToMessageId : Text} {userId : ObjectId} {s : Server}
    {e : Failure} (hcall : (chat D).alone (markMessagesRead D conversationId upToMessageId userId) s =
      (.error e, s)) {m : Message} :
    ¬ (Receipt.read conversationId upToMessageId userId).Covers s m := by
  intro hcovers
  obtain ⟨hcast, hmember, _, upTo, hupTo, hcast', hin, _⟩ := hcovers
  rw [markMessagesRead_of_member hcast hcast' hmember hupTo hin] at hcall
  cases hcall

theorem read_joins (conversationId upToMessageId : Text) (userId : ObjectId) (s : Server) :
    Joins (fun m => (Receipt.read conversationId upToMessageId userId).target s m) s
      ((Receipt.read conversationId upToMessageId userId).call D s) := by
  rcases markMessagesRead_effect (D := D) conversationId upToMessageId userId s with
    ⟨e, he⟩ | ⟨r, s', hr, _⟩
  · have hcall : (Receipt.read conversationId upToMessageId userId).call D s = ([], s) := by
      rw [Receipt.call, he]
    rw [hcall]
    exact .idle fun m _ => Receipt.target_sent (read_fails D he)
  · obtain ⟨id, upTo, hid, hupTo, hmember, hmem, hin⟩ := markMessagesRead_ok D hr
    have hcall : (Receipt.read conversationId upToMessageId userId).call D s =
        (unreadIds id userId upTo.createdAt s, s.setStatus
          (fun m => (unreadIds id userId upTo.createdAt s).contains m.id) .read s.clock) := by
      rw [Receipt.call, markMessagesRead_of_member hid hupTo hmember hmem hin]
    rw [hcall]
    refine .setStatus _ (fun m hm hp => ?_) (fun m hm hp => ?_) (fun m hm => ?_) fun m hm hp => ?_
    · rw [unreadIds_contains hm, matchesUnread_iff] at hp
      obtain ⟨rfl, hsender, _, hdate⟩ := hp
      exact ⟨if_pos ⟨hid, hmember, hsender, upTo, hmem, hupTo, hin, hdate⟩, m.status.le_read⟩
    · by_cases hread : m.status = .read
      · rw [hread]
        exact MessageStatus.le_read _
      · refine Receipt.target_sent fun hcovers => ?_
        obtain ⟨hcast, _, hsender, upTo', hmem', hcast', _, hdate⟩ := hcovers
        rw [unreadIds_contains hm, Bool.eq_false_iff, ne_eq, matchesUnread_iff] at hp
        obtain rfl : upTo = upTo' :=
          s.messages.eq_of_key hmem hmem' (Option.some.inj (hupTo.symm.trans hcast'))
        exact hp ⟨Option.some.inj (hcast.symm.trans hid), hsender, hread, hdate⟩
    · rw [unreadIds_nodup.count]
      simp only [List.contains_iff_mem, and_true]
    · rw [unreadIds_contains hm, matchesUnread_iff] at hp
      exact hp.2.2.1

theorem Receipt.joins (r : Receipt) (s : Server) : Joins (fun m => r.target s m) s (r.call D s) := by
  cases r with
  | delivered messageId userId => exact delivered_joins D messageId userId s
  | read conversationId upToMessageId userId => exact read_joins D conversationId upToMessageId userId s

/-! ### A list of calls -/

/-- The calls join all their targets, and return each message that becomes `read` once. -/
theorem callAll_joins (s : Server) (calls : List (Nat × Receipt)) :
    Joins (fun m => joinAll .sent ((calls.map Prod.snd).map (Receipt.target s m))) s
      (callAll D s calls) := by
  induction calls generalizing s with
  | nil => exact .idle fun m _ => m.status.sent_le
  | cons call rest ih =>
    obtain ⟨n, r⟩ := call
    have hfirst := r.joins D ((chat D).pass n s)
    have hrest := ih (r.call D ((chat D).pass n s)).2
    have hpass : Framed s ((chat D).pass n s) := ⟨rfl, rfl⟩
    have hframed := hpass.trans hfirst.framed
    refine ⟨hframed.trans hrest.framed, fun m hm => ?_⟩
    obtain ⟨m₁, hm₁, houtline₁, hstatus₁, hcount₁⟩ := hfirst.each m hm
    obtain ⟨m₂, hm₂, houtline₂, hstatus₂, hcount₂⟩ := hrest.each m₁ hm₁
    refine ⟨m₂, hm₂, houtline₂.trans houtline₁, ?_, ?_⟩
    · have htargets : (rest.map Prod.snd).map (Receipt.target (r.call D ((chat D).pass n s)).2 m₁) =
          (rest.map Prod.snd).map (Receipt.target s m) :=
        List.map_congr_left fun call _ => Receipt.target_framed hframed houtline₁ call
      rw [hstatus₂, hstatus₁, htargets, Receipt.target_framed hpass rfl, List.map_cons, List.map_cons,
        Data.joinAll_cons, sup_comm MessageStatus.sent, Data.joinAll_sup, sup_assoc]
    · have hid : m₁.id = m.id := (outline_eq houtline₁).1
      -- Once `read`, always `read`: a message is returned in at most one of the two.
      have hkept₁ : m.status = .read → m₁.status = .read := by
        intro h
        rw [hstatus₁, h]
        exact sup_eq_left.mpr (MessageStatus.le_read _)
      have hkept₂ : m₁.status = .read → m₂.status = .read := by
        intro h
        rw [hstatus₂, h]
        exact sup_eq_left.mpr (MessageStatus.le_read _)
      show List.count m.id (_ ++ _) = _
      rw [List.count_append, hcount₁, ← hid, hcount₂]
      by_cases hread₁ : m₁.status = .read
      · simp [hread₁, hkept₂ hread₁]
      · simp [hread₁, mt hkept₁ hread₁]

/-- **Receipts in any order.** After any list of calls, each run to completion, the status of
a message is the join of what it was with what the calls are that cover it; any list of the
same calls, in another order or with some repeated, leaves the same. The message is
returned once in all if it has become `read`, and otherwise not at all. -/
theorem receipts_confluent (D : Deployment) (s : Server) (calls calls' : List (Nat × Receipt))
    (hsame : ∀ r, r ∈ calls.map Prod.snd ↔ r ∈ calls'.map Prod.snd) (m : Message)
    (hm : m ∈ s.messages.docs) :
    statusOf m.id (callAll D s calls).2 =
        some (joinAll m.status ((calls.map Prod.snd).map (Receipt.target s m))) ∧
      statusOf m.id (callAll D s calls').2 = statusOf m.id (callAll D s calls).2 ∧
      (callAll D s calls).1.count m.id =
        if m.status ≠ .read ∧ statusOf m.id (callAll D s calls).2 = some .read then 1 else 0 := by
  have hstatus : ∀ calls : List (Nat × Receipt), statusOf m.id (callAll D s calls).2 =
      some (joinAll m.status ((calls.map Prod.snd).map (Receipt.target s m))) ∧
        (callAll D s calls).1.count m.id =
          if m.status ≠ .read ∧ statusOf m.id (callAll D s calls).2 = some .read then 1 else 0 := by
    intro calls
    obtain ⟨m', hm', houtline, hjoin, hcount⟩ := (callAll_joins D s calls).each m hm
    have hfound : statusOf m.id (callAll D s calls).2 = some m'.status := by
      rw [statusOf, Data.Collection.find_eq_some.mpr ⟨hm', (outline_eq houtline).1⟩, Option.map_some]
    constructor
    · rw [hfound, hjoin, ← Data.joinAll_sup, sup_eq_left.mpr m.status.sent_le]
    · simp only [hcount, hfound, Option.some.injEq]
  have htargets : joinAll m.status ((calls'.map Prod.snd).map (Receipt.target s m)) =
      joinAll m.status ((calls.map Prod.snd).map (Receipt.target s m)) := by
    apply Data.joinAll_congr
    intro status
    rw [List.mem_map, List.mem_map]
    simp only [hsame]
  refine ⟨(hstatus calls).1, ?_, (hstatus calls).2⟩
  rw [(hstatus calls).1, (hstatus calls').1, htargets]

end

/-- In the group of three, the third reads twice what the second has written last. -/
theorem receipts_confluent_group :
    let delivered : Receipt := .delivered (ObjectId.ending 5).toString (.ending 2)
    let read : Receipt := .read (ObjectId.ending 4).toString (ObjectId.ending 6).toString (.ending 3)
    let calls : List (Nat × Receipt) := [(0, delivered), (1, read)]
    let calls' : List (Nat × Receipt) := [(2, read), (0, delivered), (7, read)]
    statusOf (.ending 6) (callAll .default readServer calls).2 =
        some (joinAll .delivered ((calls.map Prod.snd).map (Receipt.target readServer helloMessage))) ∧
      statusOf (.ending 6) (callAll .default readServer calls').2 =
        statusOf (.ending 6) (callAll .default readServer calls).2 ∧
      (callAll .default readServer calls).1.count (.ending 6) =
        if MessageStatus.delivered ≠ .read ∧
          statusOf (.ending 6) (callAll .default readServer calls).2 = some .read then 1 else 0 := by
  intro delivered read calls calls'
  have hsame : ∀ r, r ∈ calls.map Prod.snd ↔ r ∈ calls'.map Prod.snd := by
    intro r
    simp only [calls, calls', List.map_cons, List.map_nil, List.mem_cons, List.not_mem_nil]
    tauto
  exact receipts_confluent .default readServer calls calls' hsame helloMessage (by decide)

end RealtimeChat
