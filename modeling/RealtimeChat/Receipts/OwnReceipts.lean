import RealtimeChat.Receipts.Confluence

/-! Whose receipts a status rests on.

`markMessagesRead` passes over the caller's own messages, `markMessageDelivered` does
not look at who calls. So the status of a message shows that somebody else has had
it, exactly if no sender confirms the delivery of a message of their own
(`acknowledged_iff`). -/
namespace RealtimeChat
open Data (Text)
open Async Async.System

def Operation.receipt : Operation → Option Receipt
  | .markMessageDelivered messageId userId => some (.delivered messageId userId)
  | .markMessagesRead conversationId upToMessageId userId =>
    some (.read conversationId upToMessageId userId)
  | _ => none

def Receipt.userId : Receipt → ObjectId
  | .delivered _ userId => userId
  | .read _ _ userId => userId

/-- Before any message has been sent. -/
def Progress.boot (users : Users) (conversations : Conversations) (clock : Nat) : Progress :=
  ⟨.boot users conversations .empty clock, []⟩

section
variable (D : Deployment)

/-- Who has successfully given a receipt for which message by a call. -/
def receiptsBy (s : Server) : Operation → List (ObjectId × ObjectId)
  | .markMessageDelivered messageId userId =>
    match ((chat D).alone (markMessageDelivered D messageId userId) s).1 with
    | .ok result => [(userId, result.message.id)]
    | .error _ => []
  | .markMessagesRead conversationId upToMessageId userId =>
    match ((chat D).alone (markMessagesRead D conversationId upToMessageId userId) s).1 with
    | .ok _ => (coveredBy conversationId upToMessageId userId s).map fun m => (userId, m.id)
    | .error _ => []
  | _ => []

/-- And by a sequence of calls. -/
def receiptsIn (p : Progress) : List Operation → List (ObjectId × ObjectId)
  | [] => []
  | operation :: rest => receiptsBy D p.state operation ++ receiptsIn (p.after D operation) rest

/-- After the calls, every message that is not `sent` has had a receipt from another member. -/
def Acknowledged (p : Progress) (operations : List Operation) : Prop :=
  ∀ m ∈ (p.afterAll D operations).state.messages.docs, m.status ≠ .sent →
    ∃ reader, (reader, m.id) ∈ receiptsIn D p operations ∧ reader ≠ m.senderId ∧
      IsMember m.conversationId reader (p.afterAll D operations).state

/-- The sender of a message that is `sent` has it marked as delivered. -/
def OwnDelivery (s : Server) (operation : Operation) : Prop :=
  ∃ messageId, ∃ m ∈ s.messages.docs, operation = .markMessageDelivered messageId m.senderId ∧
    m.status = .sent ∧ (Receipt.delivered messageId m.senderId).Covers s m

end

/-! ### Sequences -/

section
variable {D : Deployment}

theorem afterAll_snoc (p : Progress) (operations : List Operation) (operation : Operation) :
    p.afterAll D (operations ++ [operation]) = (p.afterAll D operations).after D operation := by
  simp [Progress.afterAll]

theorem receiptsIn_snoc (p : Progress) (operations : List Operation) (operation : Operation) :
    receiptsIn D p (operations ++ [operation]) =
      receiptsIn D p operations ++ receiptsBy D (p.afterAll D operations).state operation := by
  induction operations generalizing p with
  | nil => simp [receiptsIn, Progress.afterAll]
  | cons first rest ih =>
    show receiptsBy D p.state first ++ receiptsIn D (p.after D first) (rest ++ [operation]) = _
    rw [ih, ← List.append_assoc]
    rfl

/-! ### One call -/

/-- The receipts of a call are for the messages that it covers. -/
theorem mem_receiptsBy {s : Server} {operation : Operation} {reader id : ObjectId} :
    (reader, id) ∈ receiptsBy D s operation ↔ ∃ r, operation.receipt = some r ∧ r.userId = reader ∧
      ∃ m ∈ s.messages.docs, m.id = id ∧ r.Covers s m := by
  cases operation with
  | markMessageDelivered messageId userId =>
    simp only [Operation.receipt, Option.some.injEq, exists_eq_left']
    rcases markMessageDelivered_effect D messageId userId s with
      ⟨e, he, hnone⟩ | ⟨message, hmessage, hcovers, hsame, heq⟩
    · simp only [receiptsBy, he, List.not_mem_nil, false_iff]
      rintro ⟨_, m, hm, _, hcovers⟩
      exact hnone m hm hcovers
    · have hreceipts : receiptsBy D s (.markMessageDelivered messageId userId) =
          [(userId, message.id)] := by
        by_cases hsent : message.status = .sent
        · simp only [receiptsBy, heq, hsent, if_true]
        · simp only [receiptsBy, heq, hsent, if_false]
      rw [hreceipts, List.mem_singleton, Prod.mk.injEq]
      constructor
      · rintro ⟨rfl, rfl⟩
        exact ⟨rfl, message, hmessage, rfl, hcovers⟩
      · rintro ⟨rfl, m, hm, rfl, hcovered⟩
        exact ⟨rfl, congrArg Message.id (hsame m hm hcovered)⟩
  | markMessagesRead conversationId upToMessageId userId =>
    simp only [Operation.receipt, Option.some.injEq, exists_eq_left']
    rcases markMessagesRead_effect (D := D) conversationId upToMessageId userId s with
      ⟨e, he⟩ | ⟨r, s', hr, _⟩
    · simp only [receiptsBy, he, List.not_mem_nil, false_iff]
      rintro ⟨_, m, _, _, hcovers⟩
      exact read_fails D he hcovers
    · obtain ⟨conversation, upTo, hid, hupTo, hmember, hmem, hin⟩ := markMessagesRead_ok D hr
      have hcovered := @mem_coveredBy _ _ userId _ _ _ s hid hupTo
        (Data.Collection.find_eq_some.mpr ⟨hmem, rfl⟩)
      simp only [receiptsBy, hr, List.mem_map, Prod.mk.injEq]
      constructor
      · rintro ⟨m, hm, rfl, rfl⟩
        obtain ⟨hm, ⟨rfl, hsender⟩, hdate⟩ := hcovered.mp hm
        exact ⟨rfl, m, hm, rfl, hid, hmember, hsender, upTo, hmem, hupTo, hin, hdate⟩
      · rintro ⟨rfl, m, hm, rfl, hcovers⟩
        obtain ⟨hcast, _, hsender, upTo', hmem', hcast', _, hdate⟩ := hcovers
        obtain rfl : upTo = upTo' :=
          s.messages.eq_of_key hmem hmem' (Option.some.inj (hupTo.symm.trans hcast'))
        exact ⟨m, hcovered.mpr ⟨hm, ⟨Option.some.inj (hcast.symm.trans hid), hsender⟩, hdate⟩,
          rfl, rfl⟩
  | _ => simp [receiptsBy, Operation.receipt]

theorem after_receipt (p : Progress) {operation : Operation} {r : Receipt}
    (h : operation.receipt = some r) : (p.after D operation).state = (r.call D p.state).2 := by
  cases operation with
  | markMessageDelivered messageId userId =>
    cases h
    rfl
  | markMessagesRead conversationId upToMessageId userId =>
    cases h
    unfold Progress.after Receipt.call
    dsimp only
    generalize (chat D).alone (markMessagesRead D conversationId upToMessageId userId) p.state = result
    rcases result with ⟨e | read, s⟩
    · rfl
    · rfl
  | _ => cases h

/-- The messages are there as before, and the new ones are `sent`. -/
structure Grown (s s' : Server) : Prop where
  members : MembersStay s s'
  persists : s.messages.docs ⊆ s'.messages.docs
  origin : ∀ m ∈ s'.messages.docs,
    m ∈ s.messages.docs ∨ m.status = .sent ∧ ∀ m' ∈ s.messages.docs, m'.id ≠ m.id

theorem Grown.of_messages {s s' : Server} (hmembers : MembersStay s s')
    (h : s'.messages = s.messages) : Grown s s' := by
  refine ⟨hmembers, ?_, ?_⟩
  · rw [h]
    exact List.Subset.refl _
  · rw [h]
    exact fun m hm => .inl hm

theorem Grown.trans {a b c : Server} (h : Grown a b) (h' : Grown b c) : Grown a c := by
  refine ⟨h.members.trans h'.members, List.Subset.trans h.persists h'.persists, fun m hm => ?_⟩
  rcases h'.origin m hm with hm | ⟨hsent, hnew⟩
  · exact h.origin m hm
  · exact .inr ⟨hsent, fun m' hm' => hnew m' (h.persists hm')⟩

theorem Grown.of_within {β : Type} {p : Chat β} {A : Action → Prop}
    (hp : p.Within A SetsNoStatus) (s : Server) : Grown s ((chat D).alone p s).2 := by
  refine alone_keeps (chat D) (fun s => .of_messages (.refl s) rfl) (fun _ _ _ => .trans) ?_ ?_ hp s
  · intro a s _
    exact .of_messages (.of_conversations (Server.act_conversations D a s)) (Server.act_messages D a s)
  · intro q s hq
    show Grown s (Server.answer D q s).2
    have hmembers := MembersStay.answer (D := D) q s
    cases Server.answer_messages D q s with
    | same h => exact .of_messages hmembers h
    | created hcast hanswer h =>
      obtain ⟨hdocs, hfresh⟩ := Data.Collection.insert_eq_some h
      refine ⟨hmembers, ?_, fun m hm => ?_⟩
      · rw [hdocs]
        exact List.subset_append_left _ _
      · rw [hdocs, List.mem_append, List.mem_singleton] at hm
        rcases hm with hm | rfl
        · exact .inl hm
        · exact .inr ⟨rfl, hfresh⟩
    | saved h => exact absurd rfl (hq.1 _ _ _)
    | updated h => exact absurd rfl (hq.2 _ _)

theorem Grown.after (p : Progress) {operation : Operation} (h : operation.receipt = none) :
    Grown p.state (p.after D operation).state := by
  cases operation with
  | createConversation id userId input =>
    refine .of_within (A := fun _ => True) ?_ _
    exact createConversation_within id userId input trivial (by simp [SetsNoStatus])
      (by simp [SetsNoStatus])
  | createMessage id senderId input =>
    exact .of_within (createMessage_setsNoStatus id senderId input) _
  | pass n => exact .of_messages (.refl _) rfl
  | markMessageDelivered messageId userId => cases h
  | markMessagesRead conversationId upToMessageId userId => cases h

/-- A call joins the targets of its receipt, if it is one. -/
theorem after_joins (p : Progress) {operation : Operation} {r : Receipt}
    (h : operation.receipt = some r) : ∃ ids, Joins (fun m => r.target p.state m) p.state
      (ids, (p.after D operation).state) := by
  rw [after_receipt p h]
  exact ⟨_, r.joins D p.state⟩

theorem membersStay_after (p : Progress) (operation : Operation) :
    MembersStay p.state (p.after D operation).state := by
  cases h : operation.receipt with
  | none => exact (Grown.after p h).members
  | some r =>
    obtain ⟨ids, hjoins⟩ := after_joins (D := D) p h
    exact .of_conversations hjoins.framed.conversations

theorem Receipt.Covers.member {s : Server} {m : Message} {r : Receipt} (h : r.Covers s m) :
    IsMember m.conversationId r.userId s := by
  cases r with
  | delivered messageId userId => exact h.2
  | read conversationId upToMessageId userId => exact h.2.1

/-- A message that is still `sent` was, and has not been covered. -/
theorem sent_of_join {s : Server} {m : Message} {r : Receipt}
    (h : m.status ⊔ r.target s m = .sent) : m.status = .sent ∧ ¬ r.Covers s m := by
  have hstatus : m.status ≤ .sent := h ▸ le_sup_left
  have htarget : r.target s m ≤ .sent := h ▸ le_sup_right
  refine ⟨le_antisymm hstatus (MessageStatus.sent_le _), fun hcovers => ?_⟩
  rw [Receipt.target, if_pos hcovers] at htarget
  have hdelivered : ¬ MessageStatus.delivered ≤ .sent := by decide
  have hread : ¬ MessageStatus.read ≤ .sent := by decide
  cases r with
  | delivered messageId userId => exact hdelivered htarget
  | read conversationId upToMessageId userId => exact hread htarget

/-- No receipt has been given for a message that is `sent`. -/
structure Unreceived (s : Server) (given : List (ObjectId × ObjectId)) : Prop where
  sent : ∀ m ∈ s.messages.docs, m.status = .sent → ∀ reader, (reader, m.id) ∉ given
  known : ∀ reader id, (reader, id) ∈ given → ∃ m ∈ s.messages.docs, m.id = id

theorem Unreceived.after {p : Progress} {given : List (ObjectId × ObjectId)}
    (h : Unreceived p.state given) (operation : Operation) :
    Unreceived (p.after D operation).state (given ++ receiptsBy D p.state operation) := by
  cases hreceipt : operation.receipt with
  | none =>
    have hgrown := Grown.after (D := D) p hreceipt
    have hnone : ∀ reader id, (reader, id) ∉ receiptsBy D p.state operation := by
      intro reader id hmem
      obtain ⟨r, hr, _⟩ := mem_receiptsBy.mp hmem
      rw [hreceipt] at hr
      cases hr
    constructor
    · intro m' hm' hsent reader hmem
      rcases List.mem_append.mp hmem with hold | hnew
      · rcases hgrown.origin m' hm' with hm | ⟨_, hfresh⟩
        · exact h.sent m' hm hsent reader hold
        · obtain ⟨m, hm, hid⟩ := h.known reader m'.id hold
          exact hfresh m hm hid
      · exact hnone reader m'.id hnew
    · intro reader id hmem
      rcases List.mem_append.mp hmem with hold | hnew
      · obtain ⟨m, hm, hid⟩ := h.known reader id hold
        exact ⟨m, hgrown.persists hm, hid⟩
      · exact absurd hnew (hnone reader id)
  | some r =>
    obtain ⟨ids, hjoins⟩ := after_joins (D := D) p hreceipt
    constructor
    · intro m' hm' hsent reader hmem
      obtain ⟨m, hm, houtline, hstatus⟩ := hjoins.origin hm'
      obtain ⟨hid, _⟩ := outline_eq houtline
      obtain ⟨hbefore, hnot⟩ := sent_of_join (hstatus.symm.trans hsent)
      rw [hid] at hmem
      rcases List.mem_append.mp hmem with hold | hnew
      · exact h.sent m hm hbefore reader hold
      · obtain ⟨r', hr', _, m₁, hm₁, hid₁, hcovers⟩ := mem_receiptsBy.mp hnew
        obtain rfl : r = r' := Option.some.inj (hreceipt.symm.trans hr')
        obtain rfl : m₁ = m := p.state.messages.eq_of_key hm₁ hm hid₁
        exact hnot hcovers
    · intro reader id hmem
      rcases List.mem_append.mp hmem with hold | hnew
      · obtain ⟨m, hm, hid⟩ := h.known reader id hold
        obtain ⟨m', hm', houtline, _⟩ := hjoins.each m hm
        exact ⟨m', hm', (outline_eq houtline).1.trans hid⟩
      · obtain ⟨_, _, _, m, hm, hid, _⟩ := mem_receiptsBy.mp hnew
        obtain ⟨m', hm', houtline, _⟩ := hjoins.each m hm
        exact ⟨m', hm', (outline_eq houtline).1.trans hid⟩

theorem Unreceived.afterAll {p : Progress} (h : Unreceived p.state []) (operations : List Operation) :
    Unreceived (p.afterAll D operations).state (receiptsIn D p operations) := by
  induction operations using List.reverseRecOn with
  | nil => exact h
  | append_singleton before operation ih =>
    rw [afterAll_snoc, receiptsIn_snoc]
    exact ih.after operation

/-! ### Whose receipts -/

/-- A call that is no delivery of an own message keeps every status backed by others. -/
theorem Acknowledged.snoc {p : Progress} {before : List Operation} {operation : Operation}
    (h : Acknowledged D p before)
    (hother : ¬ OwnDelivery (p.afterAll D before).state operation) :
    Acknowledged D p (before ++ [operation]) := by
  rw [Acknowledged, afterAll_snoc, receiptsIn_snoc]
  have hmembers := membersStay_after (D := D) (p.afterAll D before) operation
  -- What was not `sent` before has its receipt already.
  have hold : ∀ m ∈ (p.afterAll D before).state.messages.docs, m.status ≠ .sent →
      ∃ reader, (reader, m.id) ∈ receiptsIn D p before ++
        receiptsBy D (p.afterAll D before).state operation ∧ reader ≠ m.senderId ∧
          IsMember m.conversationId reader ((p.afterAll D before).after D operation).state := by
    intro m hm hstatus
    obtain ⟨reader, hmem, hne, hmember⟩ := h m hm hstatus
    exact ⟨reader, List.mem_append_left _ hmem, hne, hmembers _ _ hmember⟩
  intro m' hm' hstatus
  cases hreceipt : operation.receipt with
  | none =>
    rcases (Grown.after (D := D) _ hreceipt).origin m' hm' with hm | ⟨hsent, _⟩
    · exact hold m' hm hstatus
    · exact absurd hsent hstatus
  | some r =>
    obtain ⟨ids, hjoins⟩ := after_joins (D := D) (p.afterAll D before) hreceipt
    obtain ⟨m, hm, houtline, hjoin⟩ := hjoins.origin hm'
    obtain ⟨hid, hconversation, hsender, _⟩ := outline_eq houtline
    rw [hid, hconversation, hsender]
    by_cases hsent : m.status = .sent
    · have hcovers : r.Covers (p.afterAll D before).state m := by
        by_contra hnot
        rw [Receipt.target, if_neg hnot, hsent] at hjoin
        exact hstatus hjoin
      refine ⟨r.userId, List.mem_append_right _ ?_, ?_, hmembers _ _ ?_⟩
      · exact mem_receiptsBy.mpr ⟨r, hreceipt, rfl, m, hm, rfl, hcovers⟩
      · intro hown
        cases r with
        | delivered messageId userId =>
          obtain rfl : userId = m.senderId := hown
          refine hother ⟨messageId, m, hm, ?_, hsent, hcovers⟩
          cases operation with
          | markMessageDelivered messageId' userId' =>
            cases hreceipt
            rfl
          | _ => cases hreceipt
        | read conversationId upToMessageId userId => exact hcovers.2.2.1 hown.symm
      · exact hcovers.member
    · exact hold m hm hsent

/-- The delivery of an own message leaves a status that rests on no one else. -/
theorem not_acknowledged_of_own {p : Progress} (h : Unreceived p.state []) {before : List Operation}
    {operation : Operation} (hown : OwnDelivery (p.afterAll D before).state operation) :
    ¬ Acknowledged D p (before ++ [operation]) := by
  rw [Acknowledged, afterAll_snoc, receiptsIn_snoc]
  intro hall
  obtain ⟨messageId, m, hm, rfl, hsent, hcovers⟩ := hown
  have hreceipt : (Operation.markMessageDelivered messageId m.senderId).receipt =
      some (.delivered messageId m.senderId) := rfl
  obtain ⟨ids, hjoins⟩ := after_joins (D := D) (p.afterAll D before) hreceipt
  obtain ⟨m', hm', houtline, hjoin, _⟩ := hjoins.each m hm
  obtain ⟨hid, _, hsender, _⟩ := outline_eq houtline
  obtain ⟨reader, hmem, hne, _⟩ := hall m' hm' fun hsent' =>
    (sent_of_join (hjoin.symm.trans hsent')).2 hcovers
  rw [hid] at hmem
  rw [hsender] at hne
  rcases List.mem_append.mp hmem with hold | hnew
  · exact (h.afterAll before).sent m hm hsent reader hold
  · obtain ⟨r, hr, hreader, _⟩ := mem_receiptsBy.mp hnew
    cases hr
    exact hne hreader.symm

/-- **Whose receipts a status rests on.** In every state that a sequence of calls reaches,
every message that is not `sent` has had a receipt from another member, exactly if no
call of the sequence marks a message as delivered for its own sender. -/
theorem acknowledged_iff (D : Deployment) (users : Users) (conversations : Conversations)
    (clock : Nat) (operations : List Operation) :
    (∀ before, before <+: operations →
        Acknowledged D (.boot users conversations clock) before) ↔
      ∀ before operation, before ++ [operation] <+: operations →
        ¬ OwnDelivery ((Progress.boot users conversations clock).afterAll D before).state
          operation := by
  have hstart : Unreceived (Progress.boot users conversations clock).state [] := by
    constructor
    · intro m hm
      cases hm
    · intro reader id hmem
      cases hmem
  constructor
  · intro hall before operation hprefix hown
    exact not_acknowledged_of_own hstart hown (hall _ hprefix)
  · intro hnone before
    induction before using List.reverseRecOn with
    | nil =>
      intro _ m hm
      cases hm
    | append_singleton before operation ih =>
      intro hprefix
      exact (ih ((List.prefix_append _ _).trans hprefix)).snoc (hnone before operation hprefix)

end

/-! A sender confirms the delivery of a message of their own. -/

def ownCalls : List Operation :=
  [.createMessage (.ending 5) (.ending 1) ⟨(ObjectId.ending 4).toString, "hi".toList⟩,
    .markMessageDelivered (ObjectId.ending 5).toString (.ending 1)]

def ownProgress : Progress :=
  .boot .empty (.single ⟨.ending 4, .oneToOne, none, [.ending 1, .ending 2], none, 0, 0⟩) 0

theorem ownCalls_unacknowledged :
    ¬ ∀ before, before <+: ownCalls → Acknowledged .default ownProgress before := by
  intro hall
  have hreceipts : receiptsIn .default ownProgress ownCalls = [(.ending 1, .ending 5)] := by
    decide +kernel
  have hmessages : (ownProgress.afterAll .default ownCalls).state.messages.docs =
      [⟨.ending 5, .ending 4, .ending 1, "hi".toList, .delivered, 0, 0⟩] := by
    decide +kernel
  obtain ⟨reader, hmem, hne, _⟩ := hall ownCalls List.prefix_rfl
    ⟨.ending 5, .ending 4, .ending 1, "hi".toList, .delivered, 0, 0⟩ (by rw [hmessages]; simp) (by decide)
  rw [hreceipts, List.mem_singleton] at hmem
  exact hne (Prod.mk.inj hmem).1

end RealtimeChat
