import RealtimeChat.Async.Discipline
import RealtimeChat.Handlers.Footprint
import RealtimeChat.Model.Effects

/-! Whether two users share at most one 1:1 conversation.

`createConversation` looks for a conversation with the same members and, an await
later, inserts one. Nothing in the collection refuses the second of two inserts,
and the set of members is taken over spellings, not over ids. Where no insert comes
between a lookup and the insert that follows it, and nobody names herself in
another spelling, there is one conversation for each set of members, and everyone
gets that one (`oneToOne_run`). -/
namespace RealtimeChat
open Data (Text trim Collection)
open Zod (Value)
open Async Async.System
open Server (ConversationsAfter answer_conversations matchesOneToOne)

/-- No two 1:1 conversations have the same set of members. -/
def AtMostOne (s : Server) : Prop :=
  ∀ c ∈ s.conversations.docs, ∀ c' ∈ s.conversations.docs, c.type = .oneToOne →
    c'.type = .oneToOne → c.members.toFinset = c'.members.toFinset → c.id = c'.id

instance (s : Server) : Decidable (AtMostOne s) :=
  inferInstanceAs (Decidable (∀ c ∈ s.conversations.docs, ∀ c' ∈ s.conversations.docs, _ → _))

/-- And none of them lists a member twice. -/
structure Paired (s : Server) : Prop where
  nodup : ∀ c ∈ s.conversations.docs, c.type = .oneToOne → c.members.Nodup
  unique : AtMostOne s

/-- A 1:1 conversation of these members has been inserted. -/
def InsertedIn (members : Finset ObjectId) (log : Log) : Prop :=
  ∃ pid id name memberIds now c, c.members.toFinset = members ∧
    .answered pid (.conversationCreate id .oneToOne name memberIds now) (.ok c) ∈ log

/-- Between the lookup of a call, which found nothing, and its insert, another call
has inserted a conversation of the same members. -/
def Raced (log : Log) : Prop :=
  ∃ pid id name memberIds now c later between earlier,
    log = later ++ .answered pid (.conversationCreate id .oneToOne name memberIds now) (.ok c) ::
      between ++ .answered pid (.conversationFindOneToOne memberIds) (.ok none) :: earlier ∧
    InsertedIn c.members.toFinset between

/-- A 1:1 request in which the caller names herself, spelled otherwise than her own id. -/
def NamesSelf : Call → Prop
  | .createConversation userId body _ =>
    ∃ input ∈ (createConversationSchema.parse body).toOption, input.type = .oneToOne ∧
      ∃ m ∈ input.members, ObjectId.cast m = some userId ∧ m ≠ userId.toString
  | _ => False

instance : DecidablePred NamesSelf
  | .createConversation _ body _ => inferInstanceAs
    (Decidable (∃ input ∈ (createConversationSchema.parse body).toOption, _ ∧ ∃ m ∈ _, _ ∧ _))
  | .connect _ => .isFalse id
  | .disconnect _ => .isFalse id
  | .event _ _ _ _ => .isFalse id
  | .listConversations _ => .isFalse id
  | .getMessageHistory _ _ _ => .isFalse id

structure Undisturbed (log : Log) : Prop where
  notRaced : ¬ Raced log
  notSelf : ∀ call ∈ arrivals log, ¬ NamesSelf call

/-- The call is a 1:1 request by one of the users, naming the other. -/
def Requests (users : Finset ObjectId) (call : Call) : Prop :=
  ∃ userId body id input m v, call = .createConversation userId body id ∧
    Zod.Schema.parse createConversationSchema body = .ok input ∧ input.type = .oneToOne ∧
    input.members = [m] ∧ ObjectId.cast m = some v ∧ users = {userId, v}

/-! ### The members of a 1:1 conversation -/

theorem fromSet_pair (a b : Text) : fromSet [a, b] = if b = a then [a] else [a, b] := by
  by_cases h : b = a <;> simp [fromSet, h]

/-- The ids of a 1:1 request, cast: no repetition, and the set of the two users. -/
theorem cast_pair {userId v : ObjectId} {m : Text} (hm : ObjectId.cast m = some v)
    (hself : v = userId → m = userId.toString) :
    ∃ members, (fromSet [userId.toString, m]).mapM ObjectId.cast = some members ∧
      members.Nodup ∧ members.toFinset = {userId, v} := by
  rw [fromSet_pair]
  by_cases h : m = userId.toString
  · subst h
    rw [ObjectId.cast_toString, Option.some.injEq] at hm
    exact ⟨[userId], by simp, List.nodup_singleton _, by simp [hm]⟩
  · have hne : userId ≠ v := fun he => h (hself he.symm)
    exact ⟨[userId, v], by simp [h, hm], by simp [hne], by ext; simp⟩

/-- For members without repetition, `$all` and `$size` say that the sets are equal. -/
theorem matches_iff {members : List ObjectId} (hm : members.Nodup) {c : Conversation}
    (hc : c.type = .oneToOne → c.members.Nodup) : matchesOneToOne members c = true ↔
      c.type = .oneToOne ∧ c.members.toFinset = members.toFinset := by
  simp only [matchesOneToOne, Bool.and_eq_true, beq_iff_eq, List.all_eq_true,
    List.contains_iff_mem, and_assoc]
  refine and_congr_right fun ht => ⟨fun hboth => ?_, fun hset => ?_⟩
  · obtain ⟨hall, hlength⟩ := hboth
    have hperm := (hm.subperm hall).perm_of_length_le hlength.le
    exact (List.toFinset_eq_of_perm _ _ hperm).symm
  · have hperm := List.perm_of_nodup_nodup_toFinset_eq (hc ht) hm hset
    exact ⟨fun m h => hperm.mem_iff.mpr h, hperm.length_eq⟩

/-! ### One insert at a time -/

def pairs : Discipline chatInterface Server Failure Call where
  inv w := Paired w.state
  rel w w' :=
    (∀ c ∈ w.state.conversations.docs, ∃ c' ∈ w'.state.conversations.docs, c.Same c') ∧
    ∃ new, w'.log = new ++ w.log ∧ ∀ c' ∈ w'.state.conversations.docs, c'.type = .oneToOne →
      (∃ c ∈ w.state.conversations.docs, c.Same c') ∨ InsertedIn c'.members.toFinset new
  assume := Undisturbed
  refl w := ⟨fun c hc => ⟨c, hc, rfl, rfl, rfl⟩, [], rfl, fun c hc _ => .inl ⟨c, hc, rfl, rfl, rfl⟩⟩
  trans := by
    intro a b c h' hall
    obtain ⟨hab, new, hnew, hfrom⟩ := h'
    obtain ⟨hbc, new', hnew', hfrom'⟩ := hall
    refine ⟨fun d hd => ?_, new' ++ new, by rw [hnew', hnew, List.append_assoc], fun d hd ht => ?_⟩
    · obtain ⟨d', hd', hs⟩ := hab d hd
      obtain ⟨d'', hd'', hs'⟩ := hbc d' hd'
      exact ⟨d'', hd'', hs.trans hs'⟩
    · rcases hfrom' d hd ht with ⟨d', hd', hs⟩ | ⟨pid, id, name, memberIds, now, d', hm, hmem⟩
      · rcases hfrom d' hd' (hs.type ▸ ht) with ⟨d'', hd'', hs'⟩ | hin
        · exact .inl ⟨d'', hd'', hs'.trans hs⟩
        · obtain ⟨pid, id, name, memberIds, now, e, hm, hmem⟩ := hin
          exact .inr ⟨pid, id, name, memberIds, now, e, by rw [hm, hs.members],
            List.mem_append_right _ hmem⟩
      · exact .inr ⟨pid, id, name, memberIds, now, d', hm, List.mem_append_left _ hmem⟩
  earlier := by
    intro e log h'
    obtain ⟨hrace, hself⟩ := h'
    refine ⟨?_, fun call h => hself call ?_⟩
    · intro h'
      obtain ⟨pid, id, name, memberIds, now, c, later, between, earlier, rfl, hin⟩ := h'
      exact hrace ⟨pid, id, name, memberIds, now, c, e :: later, between, earlier, rfl, hin⟩
    · obtain ⟨e', he', hcall⟩ := List.mem_filterMap.mp h
      exact List.mem_filterMap.mpr ⟨e', List.mem_cons_of_mem _ he', hcall⟩

section
variable (D : Deployment) {pid : Nat} {w : World chatInterface Server Failure Call}

/-- A step that leaves the conversations alone. -/
theorem pairs_keeps_same {w' : World chatInterface Server Failure Call} (hi : Paired w.state)
    (h : w'.state.conversations = w.state.conversations) (hlog : ∃ new, w'.log = new ++ w.log) :
    pairs.Keeps w w' := by
  obtain ⟨new, hlog⟩ := hlog
  refine ⟨⟨fun c hc => ⟨c, h ▸ hc, rfl, rfl, rfl⟩, new, hlog, fun c hc _ => ?_⟩, ?_⟩
  · exact .inl ⟨c, h ▸ hc, rfl, rfl, rfl⟩
  · exact ⟨fun c hc => hi.nodup c (h ▸ hc), fun c hc c' hc' => hi.unique c (h ▸ hc) c' (h ▸ hc')⟩

/-- The query has just inserted `c`, the first 1:1 conversation of its members. -/
structure FirstOf (pid : Nat) (q : Query) (c : Conversation)
    (w : World chatInterface Server Failure Call) : Prop where
  query : ∃ name memberIds now, q = .conversationCreate c.id .oneToOne name memberIds now
  inserted : InsertedIn c.members.toFinset [.answered pid q (Server.answer D q w.state).1]
  nodup : c.members.Nodup
  fresh : ∀ c' ∈ w.state.conversations.docs, c'.type = .oneToOne →
    c'.members.toFinset ≠ c.members.toFinset

/-- A query keeps the pairs, if a 1:1 conversation that it inserts is the first of its
members. -/
theorem pairs_keeps_respond (hi : Paired w.state) {q : Query}
    (hfirst : ∀ name memberIds now, ∀ c : Conversation,
      q = .conversationCreate c.id .oneToOne name memberIds now →
      memberIds.mapM ObjectId.cast = some c.members →
      InsertedIn c.members.toFinset [.answered pid q (Server.answer D q w.state).1] →
      c.members.Nodup ∧ ∀ c' ∈ w.state.conversations.docs, c'.type = .oneToOne →
        c'.members.toFinset ≠ c.members.toFinset) :
    pairs.Keeps w ((chat D).respond pid q w) := by
  have hafter := answer_conversations D q w.state
  have horigin : ∀ c ∈ (Server.answer D q w.state).2.conversations.docs, c.type = .oneToOne →
      (∃ c' ∈ w.state.conversations.docs, c'.Same c) ∨ FirstOf D pid q c w := by
    intro c hc ht
    apply (hafter.origin hc).imp_right
    intro h
    obtain ⟨name, memberIds, now, hcast, heq⟩ := h
    rw [ht] at heq
    obtain ⟨hq, hanswer⟩ := Sigma.mk.inj_iff.mp heq
    have hin : InsertedIn c.members.toFinset [.answered pid q (Server.answer D q w.state).1] := by
      refine ⟨pid, c.id, name, memberIds, now, c, rfl, ?_⟩
      subst hq
      rw [eq_of_heq hanswer]
      exact .head _
    obtain ⟨hnodup, hfresh⟩ := hfirst name memberIds now c hq hcast hin
    exact ⟨⟨name, memberIds, now, hq⟩, hin, hnodup, hfresh⟩
  refine ⟨⟨fun c hc => hafter.persists hc, [_], rfl, fun c hc ht => ?_⟩, fun c hc ht => ?_, ?_⟩
  · exact (horigin c hc ht).imp_right FirstOf.inserted
  · rcases horigin c hc ht with ⟨c', hc', hs⟩ | hnew
    · rw [hs.members]
      exact hi.nodup c' hc' (hs.type ▸ ht)
    · exact hnew.nodup
  · intro c hc c' hc' ht ht' hset
    rcases horigin c hc ht with ⟨d, hd, hs⟩ | hnew <;>
      rcases horigin c' hc' ht' with ⟨d', hd', hs'⟩ | hnew'
    · rw [hs.id, hs'.id]
      apply hi.unique d hd d' hd' (hs.type ▸ ht) (hs'.type ▸ ht')
      rw [← hs.members, ← hs'.members, hset]
    · refine absurd ?_ (hnew'.fresh d hd (hs.type ▸ ht))
      rw [← hs.members, hset]
    · refine absurd ?_ (hnew.fresh d' hd' (hs'.type ▸ ht'))
      rw [← hs'.members, hset]
    · obtain ⟨name, memberIds, now, hq⟩ := hnew.query
      obtain ⟨name', memberIds', now', hq'⟩ := hnew'.query
      exact (Query.conversationCreate.inj (hq.symm.trans hq')).1

/-- Only 1:1 requests insert 1:1 conversations. -/
theorem pairs_steady_of_within {β : Type} {p : Chat β} {A : Action → Prop}
    (hp : p.Within A fun q : Query => ∀ id name memberIds now,
      q ≠ .conversationCreate id .oneToOne name memberIds now) :
    (chat D).Steady pairs p := by
  refine Steady.of_within (fun pid a w _ hi => ?_) (fun pid q w hq hi => ?_) (fun pid q w hi => ?_) hp
  · exact pairs_keeps_same hi (Server.act_conversations D a w.state) ⟨[_], rfl⟩
  · exact pairs_keeps_respond D hi fun name memberIds now c h => absurd h (hq _ _ _ _)
  · exact pairs_keeps_same hi rfl ⟨[_], rfl⟩

/-- `pid` has found no conversation of these members; if there is one now, it was
inserted since. -/
def LookedUp (pid : Nat) (memberIds : List Text) (members : Finset ObjectId)
    (w : World chatInterface Server Failure Call) : Prop :=
  ∃ between earlier,
    w.log = between ++ .answered pid (.conversationFindOneToOne memberIds) (.ok none) :: earlier ∧
      ∀ c ∈ w.state.conversations.docs, c.type = .oneToOne → c.members.toFinset = members →
        InsertedIn members between

theorem LookedUp.outlasts {memberIds : List Text} {members : Finset ObjectId}
    {w w' : World chatInterface Server Failure Call} (h : LookedUp pid memberIds members w)
    (hrel : pairs.rel w w') : LookedUp pid memberIds members w' := by
  obtain ⟨between, earlier, hlog, hbetween⟩ := h
  obtain ⟨_, new, hnew, horigin⟩ := hrel
  have hgrow : ∀ {part}, (∀ e ∈ part, e ∈ new ++ between) → InsertedIn members part →
      InsertedIn members (new ++ between) := by
    intro part hpart h'
    obtain ⟨pid, id, name, memberIds, now, c, hm, hmem⟩ := h'
    exact ⟨pid, id, name, memberIds, now, c, hm, hpart _ hmem⟩
  refine ⟨new ++ between, earlier, by rw [hnew, hlog, List.append_assoc], fun c hc ht hm => ?_⟩
  rcases horigin c hc ht with ⟨c', hc', hs⟩ | hin
  · exact hgrow (fun e => List.mem_append_right _)
      (hbetween c' hc' (hs.type ▸ ht) (by rw [← hs.members, hm]))
  · exact hgrow (fun e => List.mem_append_left _) (hm ▸ hin)

/-- The insert of a call that has found nothing is the first, unless another came between. -/
theorem pairs_keeps_insert (hi : Paired w.state) {id : ObjectId} {name : Option Text}
    {memberIds : List Text} {members : List ObjectId} {now : Nat}
    (hcast : memberIds.mapM ObjectId.cast = some members) (hnodup : members.Nodup)
    (hlooked : LookedUp pid memberIds members.toFinset w)
    (ha : pairs.assume
      ((chat D).respond pid (.conversationCreate id .oneToOne name memberIds now) w).log) :
    pairs.Keeps w ((chat D).respond pid (.conversationCreate id .oneToOne name memberIds now) w) := by
  apply pairs_keeps_respond D hi
  intro name' memberIds' now' c hq hcast' hin
  injection hq with hid _ hname hmembers hnow
  subst hname hmembers hnow
  obtain rfl : members = c.members := Option.some.inj (hcast.symm.trans hcast')
  refine ⟨hnodup, fun c' hc' ht' hset => ?_⟩
  obtain ⟨between, earlier, hlog, hbetween⟩ := hlooked
  obtain ⟨pid', id', name', memberIds', now', c'', hset', hmem⟩ := hin
  injection List.mem_singleton.mp hmem with _ hq hanswer
  injection hq with hid' _ hname hmembers hnow
  subst hid' hname hmembers hnow
  refine ha.notRaced ⟨pid, id', name', memberIds', now', c'', [], between, earlier, ?_, ?_⟩
  · show Event.answered pid _ (Server.answer D _ w.state).1 :: w.log = _
    rw [← hanswer, hlog]
    rfl
  · rw [hset']
    exact hbetween c' hc' ht' hset

/-- A stored 1:1 conversation of these users. -/
def Holds (users : Finset ObjectId) (id : ObjectId) (s : Server) : Prop :=
  ∃ c ∈ s.conversations.docs, c.id = id ∧ c.type = .oneToOne ∧ c.members.toFinset = users

theorem Holds.outlasts {users : Finset ObjectId} {id : ObjectId}
    {w w' : World chatInterface Server Failure Call} (h : Holds users id w.state)
    (hrel : pairs.rel w w') : Holds users id w'.state := by
  obtain ⟨c, hc, rfl, ht, hm⟩ := h
  obtain ⟨c', hc', hs⟩ := hrel.1 c hc
  exact ⟨c', hc', hs.id, hs.type.trans ht, by rw [hs.members, hm]⟩

/-- What a call that was answered with a conversation has been given. -/
def Given (call : Call) (r : Except Failure Conversation)
    (w : World chatInterface Server Failure Call) : Prop :=
  ∀ c, r = .ok c → ∀ users, Requests users call → Holds users c.id w.state

theorem lookup_answer {memberIds : List Text} {found : Option Conversation} {s : Server}
    (h : (Server.answer D (.conversationFindOneToOne memberIds) s).1 = .ok found) :
    ∃ members, memberIds.mapM ObjectId.cast = some members ∧
      s.conversations.docs.find? (matchesOneToOne members) = found := by
  simp only [Server.answer] at h
  split at h
  · rename_i members hcast
    exact ⟨members, hcast, Except.ok.inj h⟩
  · cases h

/-- The ids of an accepted 1:1 request that does not name the caller in another spelling. -/
theorem members_of_request {userId id : ObjectId} {body : Value} {input : CreateConversationInput}
    (hparse : createConversationSchema.parse body = .ok input) (ht : input.type = .oneToOne)
    (hself : ¬ NamesSelf (.createConversation userId body id)) {members : List ObjectId}
    (hcast : (fromSet (userId.toString :: input.members)).mapM ObjectId.cast = some members) :
    members.Nodup ∧
      ∀ users, Requests users (.createConversation userId body id) → members.toFinset = users := by
  obtain ⟨m, hm⟩ := createConversation_oneToOne hparse ht
  rw [hm] at hcast
  have hpair : ∀ v, ObjectId.cast m = some v →
      members.Nodup ∧ members.toFinset = {userId, v} := by
    intro v hv
    have hown : v = userId → m = userId.toString := by
      intro h'
      subst h'
      by_contra hne
      exact hself ⟨input, by rw [hparse]; rfl, ht, m, by rw [hm]; exact .head _, hv, hne⟩
    obtain ⟨members', hcast', hnodup, hset⟩ := cast_pair hv hown
    obtain rfl : members = members' := Option.some.inj (hcast.symm.trans hcast')
    exact ⟨hnodup, hset⟩
  refine ⟨?_, ?_⟩
  · rw [fromSet_pair] at hcast
    split at hcast
    · rename_i h
      exact (hpair userId (by rw [h, ObjectId.cast_toString])).1
    · cases hv : ObjectId.cast m with
      | none => simp [hv] at hcast
      | some v => exact (hpair v hv).1
  · intro users h'
    obtain ⟨userId', body', id', input', m', v, hcall, hparse', _, hm', hv, rfl⟩ := h'
    injection hcall with hu hb hi
    subst hu hb hi
    obtain rfl : input = input' := Except.ok.inj (hparse.symm.trans hparse')
    obtain rfl : m = m' := List.singleton_inj.mp (hm.symm.trans hm')
    exact (hpair v hv).2

theorem createConversation_safe {userId id : ObjectId} {body : Value}
    {input : CreateConversationInput} (hparse : createConversationSchema.parse body = .ok input)
    (ht : input.type = .oneToOne) {b w : World chatInterface Server Failure Call}
    (hk : pairs.Keeps b w)
    (harrived : .arrived pid (.createConversation userId body id) ∈ w.log) :
    (chat D).Safe pairs pid (fun r b w => pairs.Keeps b w ∧
      Given (.createConversation userId body id) r w) (createConversation id userId input) b w := by
  unfold createConversation
  simp only [ht, if_true]
  refine (safe_bind _ _ _ _ _).mpr (Safe.of_query hk ?_ ?_ ?_ ?_)
  · exact fun w₁ hw₁ _ => pairs_keeps_respond D hw₁.inv fun _ _ _ _ h => by cases h
  · exact fun w₁ hw₁ _ => pairs_keeps_same hw₁.inv rfl ⟨[_], rfl⟩
  · intro found w₁ w₂ hw₁ hfound hstep hw₂
    obtain ⟨members, hcast, hfind⟩ := lookup_answer D hfound
    obtain ⟨hnodup, husers⟩ := members_of_request hparse ht
      (hw₁.assume.notSelf _ (mem_arrivals (hw₁.mem harrived))) hcast
    have hmatches : ∀ c ∈ w₁.state.conversations.docs, (matchesOneToOne members c = true ↔
        c.type = .oneToOne ∧ c.members.toFinset = members.toFinset) :=
      fun c hc => matches_iff hnodup (hw₁.inv.nodup c hc)
    cases found with
    | some c =>
      refine ⟨.refl hw₂.inv, fun c' he users hu => ?_⟩
      obtain rfl : c = c' := Except.ok.inj he
      have hc := List.mem_of_find?_eq_some hfind
      obtain ⟨hone, hset⟩ := (hmatches c hc).mp (List.find?_some hfind)
      have hholds : Holds users c.id w₁.state := ⟨c, hc, rfl, hone, hset.trans (husers users hu)⟩
      exact (hholds.outlasts hstep.rel).outlasts hw₂.rel
    | none =>
      have hlooked : LookedUp pid (fromSet (userId.toString :: input.members)) members.toFinset w₂ := by
        refine LookedUp.outlasts ⟨[], w₁.log, ?_, fun c hc hone hset => ?_⟩ hw₂.rel
        · show Event.answered pid _ ((chat D).answer _ w₁.state).1 :: w₁.log = _
          rw [hfound]
          rfl
        · have hsame : ((chat D).respond pid (.conversationFindOneToOne
              (fromSet (userId.toString :: input.members))) w₁).state = w₁.state :=
            Server.answer_reads D (q := .conversationFindOneToOne _) trivial w₁.state
          rw [hsame] at hc
          exact absurd ((hmatches c hc).mpr ⟨hone, hset⟩) (List.find?_eq_none.mp hfind c hc)
      have hnow : pairs.Keeps w₂ ((chat D).perform pid .now w₂) :=
        pairs_keeps_same hw₂.inv rfl ⟨[_], rfl⟩
      apply (safe_bind _ _ _ _ _).mpr
      refine Safe.of_query hnow ?_ ?_ ?_
        fun e w₃ w₄ _ h => ⟨.refl h.keeps.inv, fun _ he => by cases he⟩
      · intro w₃ hw₃ ha
        rw [ht] at ha ⊢
        exact pairs_keeps_insert D hw₃.inv hcast hnodup
          ((hlooked.outlasts hnow.rel).outlasts hw₃.rel) ha
      · exact fun w₃ hw₃ _ => pairs_keeps_same hw₃.inv rfl ⟨[_], rfl⟩
      · intro c w₃ w₄ _ hcreated _ hw₄
        refine ⟨.refl hw₄.inv, fun c' he users hu => ?_⟩
        obtain rfl : c = c' := Except.ok.inj he
        obtain ⟨hc, hone, hcast'⟩ := Server.conversationCreate_answer hcreated
        have hset := Option.some.inj (hcast.symm.trans hcast')
        exact Holds.outlasts ⟨c, hc, rfl, hone.trans ht, by rw [← hset, husers users hu]⟩ hw₄.rel
  · exact fun e w₁ w₂ _ h => ⟨.refl h.keeps.inv, fun _ he => by cases he⟩

/-- What a finished call owes: a 1:1 request has been given the conversation of its users. -/
def Served (call : Call) (r : Except Failure Response)
    (w : World chatInterface Server Failure Call) : Prop :=
  ∀ c, r = .ok (.conversation c) → ∀ users, Requests users call → Holds users c.id w.state

theorem createConversationHandler_safe {userId id : ObjectId} {body : Value}
    {b w : World chatInterface Server Failure Call} (hk : pairs.Keeps b w)
    (harrived : .arrived pid (.createConversation userId body id) ∈ w.log) :
    (chat D).Safe pairs pid (pairs.Ended (Served (.createConversation userId body id)))
      (createConversationHandler id userId body) b w := by
  unfold createConversationHandler
  split
  · exact fun _ => ⟨hk, fun _ he => by cases he⟩
  · rename_i input hparse
    apply (safe_bind _ _ _ _ _).mpr
    by_cases ht : input.type = .oneToOne
    · apply (createConversation_safe D hparse ht hk harrived).mono
      intro r b w h'
      obtain ⟨hk, hgiven⟩ := h'
      rcases r with e | c
      · exact fun _ => ⟨hk, fun _ he => by cases he⟩
      · exact fun _ => ⟨hk, fun c' he => hgiven c' (by cases he; rfl)⟩
    · have hsteady : (chat D).Steady pairs (createConversation id userId input) :=
        pairs_steady_of_within D (createConversation_within id userId input
          (A := fun _ => True) trivial (by simp) fun _ _ _ _ _ _ h =>
            ht (Query.conversationCreate.inj h).2.1)
      apply (hsteady pid b w hk).mono
      have hother : ∀ users, ¬ Requests users (.createConversation userId body id) := by
        intro users h'
        obtain ⟨_, _, _, input', _, _, hcall, hparse', ht', _⟩ := h'
        injection hcall with _ hb _
        subst hb
        obtain rfl : input = input' := Except.ok.inj (hparse.symm.trans hparse')
        exact ht ht'
      intro r b w hk
      rcases r with e | c
      · exact fun _ => ⟨hk, fun _ he => by cases he⟩
      · exact fun _ => ⟨hk, fun _ _ users hu => absurd hu (hother users)⟩

theorem chat_upholds_pairs : (chat D).Upholds pairs fun _ => Served := by
  refine ⟨fun pid call w s hi _ ha => ?_, fun n w hi => pairs_keeps_same hi rfl ⟨[], rfl⟩, ?_⟩
  · have hk : pairs.Keeps w (arrival pid call s w) :=
      pairs_keeps_same hi (accept_sameBehind ha).conversations ⟨[_], rfl⟩
    have hwithin : (∀ users, ¬ Requests users call) →
        (∀ id name memberIds now, ¬ call.Asks (.conversationCreate id .oneToOne name memberIds now)) →
        (chat D).Safe pairs pid (pairs.Ended (Served call)) (Call.body D call) w
          (arrival pid call s w) := by
      intro hnone hquiet
      have hsteady := pairs_steady_of_within D ((body_within D call).mono (fun _ h => h)
        fun q hq id name memberIds now he => hquiet id name memberIds now (he ▸ hq))
      exact (hsteady pid w _ hk).mono fun r b w hk _ =>
        ⟨hk, fun _ _ users hu => absurd hu (hnone users)⟩
    cases call with
    | createConversation userId body id => exact createConversationHandler_safe D hk (.head _)
    | event socket name args id =>
      refine hwithin (fun users ⟨_, _, _, _, _, _, h, _⟩ => by cases h) ?_
      cases name <;> exact fun _ _ _ _ h => h
    | _ => exact hwithin (fun users ⟨_, _, _, _, _, _, h, _⟩ => by cases h) fun _ _ _ _ h => h
  · intro pid call r w w' h hw c hr users hu
    exact (h c hr users hu).outlasts hw.rel

/-- **One conversation for each pair.** In every run, from any state that has at most one
1:1 conversation for each set of members, if no insert comes between a lookup and the insert
that follows it and no request names its caller in another spelling, there is still at most
one, and the requests of the same two users are all given that one, whoever makes them. -/
theorem oneToOne_run {s : Server} (hs : Paired s) (moves : List (Move Call))
    (h : Undisturbed ((chat D).run (Config.start s) moves).world.log) :
    AtMostOne ((chat D).run (Config.start s) moves).world.state ∧
    ∀ (pid pid' : Nat) call call' c c' users,
      ((chat D).run (Config.start s) moves).tasks[pid]? =
        some ⟨call, .done (.ok (.conversation c))⟩ →
      ((chat D).run (Config.start s) moves).tasks[pid']? =
        some ⟨call', .done (.ok (.conversation c'))⟩ →
      Requests users call → Requests users call' → c.id = c'.id := by
  have hstart : (chat D).Sound pairs (fun _ => Served) (Config.start s) := .start hs
  obtain ⟨_, hsound⟩ := hstart.run (chat_upholds_pairs D) moves h
  refine ⟨hsound.inv.unique, fun pid pid' call call' c c' users he he' hu hu' => ?_⟩
  obtain ⟨d, hd, hid, ht, hset⟩ := hsound.tasks pid _ he c rfl users hu
  obtain ⟨d', hd', hid', ht', hset'⟩ := hsound.tasks pid' _ he' c' rfl users hu'
  rw [← hid, ← hid']
  exact hsound.inv.unique d hd d' hd' ht ht' (hset.trans hset'.symm)

end

/-! Two users who each ask for a conversation with the other. -/

def request (userId other id : ObjectId) : Call :=
  .createConversation userId (.object [("type", .string "1:1".toList),
    ("members", .array [.string other.toString])]) id

/-- Two requests, the second made once the first is through. -/
def inTurn : List (Move Call) :=
  [.arrive (request (.ending 1) (.ending 2) (.ending 5)),
    .answer 0, .resume 0, .answer 0, .resume 0,
    .arrive (request (.ending 2) (.ending 1) (.ending 6)), .answer 1, .resume 1]

/-- The same two requests, each looking before the other has inserted. -/
def atOnce : List (Move Call) :=
  [.arrive (request (.ending 1) (.ending 2) (.ending 5)),
    .arrive (request (.ending 2) (.ending 1) (.ending 6)),
    .answer 0, .answer 1, .resume 0, .resume 1, .answer 0, .answer 1, .resume 0, .resume 1]

def noConversations : Server := .boot .empty .empty .empty 5

/-- Whether the event is the insert of a 1:1 conversation. -/
def inserts : Event chatInterface Failure Call → Bool
  | .answered _ (.conversationCreate _ .oneToOne _ _ _) (.ok _) => true
  | _ => false

/-- A race takes two inserts. -/
theorem Raced.two {log : Log} (h : Raced log) :
    2 ≤ log.countP inserts := by
  obtain ⟨pid, id, name, memberIds, now, c, later, between, earlier, rfl, hin⟩ := h
  obtain ⟨pid', id', name', memberIds', now', c', _, hmem⟩ := hin
  have hbetween : 1 ≤ between.countP inserts := List.countP_pos_iff.mpr ⟨_, hmem, rfl⟩
  have hinsert : inserts (.answered pid (.conversationCreate id .oneToOne name memberIds now)
    (.ok c)) = true := rfl
  rw [List.append_assoc, List.cons_append, List.countP_append, List.countP_cons_of_pos hinsert,
    List.countP_append]
  omega

theorem oneToOne_run_inTurn :
    AtMostOne ((chat .default).run (Config.start noConversations) inTurn).world.state := by
  have hstart : Paired noConversations := ⟨by decide, by decide⟩
  refine (oneToOne_run .default hstart inTurn ⟨fun hraced => ?_, ?_⟩).1
  · exact absurd hraced.two (by decide +kernel)
  · decide +kernel

theorem atOnce_twice :
    ¬ AtMostOne ((chat .default).run (Config.start noConversations) atOnce).world.state := by
  decide +kernel

end RealtimeChat
