import RealtimeChat.Conversations.OneToOne

/-! Who is in the conversation that `createConversation` returns.

Repetitions are removed from the spellings that the request gives, and the number of
members is checked on these; the ids that they denote are what is stored and looked
up. So the members are the caller and those named, each once, and in a 1:1
conversation two users, exactly if no user is spelled in two ways and no 1:1 request
names the caller (`wellMade_iff`). -/
namespace RealtimeChat
open Data (Text)
open Zod (Value)
open Async Async.System
open Server (matchesOneToOne)

/-- The members are the caller and those of the request, each once; two for a 1:1. -/
structure WellMade (userId : ObjectId) (input : CreateConversationInput) (c : Conversation) :
    Prop where
  caller : userId ∈ c.members
  nodup : c.members.Nodup
  exact : ∀ id, id ∈ c.members ↔ id = userId ∨ ∃ m ∈ input.members, ObjectId.cast m = some id
  pair : input.type = .oneToOne → c.members.toFinset.card = 2

/-- No user is spelled in two ways, and a 1:1 request does not name its caller. -/
structure SpelledOnce (userId : ObjectId) (input : CreateConversationInput) : Prop where
  spelling : ∀ a ∈ userId.toString :: input.members, ∀ b ∈ userId.toString :: input.members,
    ObjectId.cast a = ObjectId.cast b → a = b
  other : input.type = .oneToOne → ∀ m ∈ input.members, ObjectId.cast m ≠ some userId

/-! ### From spellings to ids -/

theorem fromSet_nodup (xs : List Text) : (fromSet xs).Nodup := by
  have hfold : ∀ seen : List Text, seen.Nodup → (xs.foldl (fun seen x =>
      if x ∈ seen then seen else seen ++ [x]) seen).Nodup := by
    induction xs with
    | nil => exact fun seen h => h
    | cons x rest ih =>
      intro seen hseen
      rw [List.foldl_cons]
      apply ih
      split
      · exact hseen
      · rename_i hx
        rw [List.nodup_append]
        refine ⟨hseen, List.nodup_singleton x, fun y hy z hz heq => hx ?_⟩
        rwa [← List.mem_singleton.mp hz, ← heq]
  exact hfold [] List.nodup_nil

/-- The ids of distinct spellings are distinct, if no two spellings denote the same. -/
theorem nodup_mapM_cast {spellings : List Text} {ids : List ObjectId} (hs : spellings.Nodup)
    (h : spellings.mapM ObjectId.cast = some ids) :
    ids.Nodup ↔ ∀ a ∈ spellings, ∀ b ∈ spellings, ObjectId.cast a = ObjectId.cast b → a = b := by
  have hids : ids.map some = spellings.map ObjectId.cast := by
    induction spellings generalizing ids with
    | nil =>
      obtain rfl : [] = ids := Option.some.inj h
      rfl
    | cons s rest ih =>
      rw [List.mapM_cons] at h
      cases hcast : ObjectId.cast s with
      | none => simp [hcast] at h
      | some o =>
        cases hrest : rest.mapM ObjectId.cast with
        | none => simp [hcast, hrest] at h
        | some os =>
          obtain rfl : o :: os = ids := by simpa [hcast, hrest] using h
          rw [List.map_cons, List.map_cons, hcast, ih hs.of_cons hrest]
  rw [← List.nodup_map_iff (Option.some_injective _), hids]
  constructor
  · intro hnodup a ha b hb heq
    exact List.inj_on_of_nodup_map hnodup ha hb heq
  · intro hinj
    exact hs.map_on hinj

/-- The members as they are created. -/
theorem members_created {userId : ObjectId} {input : CreateConversationInput} {c : Conversation}
    (hcast : (fromSet (userId.toString :: input.members)).mapM ObjectId.cast = some c.members) :
    (∀ id, id ∈ c.members ↔ id = userId ∨ ∃ m ∈ input.members, ObjectId.cast m = some id) ∧
      (c.members.Nodup ↔ ∀ a ∈ userId.toString :: input.members,
        ∀ b ∈ userId.toString :: input.members, ObjectId.cast a = ObjectId.cast b → a = b) := by
  constructor
  · intro id
    rw [ObjectId.mem_mapM_cast hcast]
    simp only [mem_fromSet, List.mem_cons, exists_eq_or_imp, ObjectId.cast_toString,
      Option.some.injEq]
    exact or_congr_left eq_comm
  · rw [nodup_mapM_cast (fromSet_nodup _) hcast]
    simp only [mem_fromSet]

theorem wellMade_iff_group {userId : ObjectId} {input : CreateConversationInput} {c : Conversation}
    (ht : input.type ≠ .oneToOne)
    (hcast : (fromSet (userId.toString :: input.members)).mapM ObjectId.cast = some c.members) :
    WellMade userId input c ↔ SpelledOnce userId input := by
  obtain ⟨hexact, hnodup⟩ := members_created hcast
  constructor
  · intro h
    exact ⟨hnodup.mp h.nodup, fun h' => absurd h' ht⟩
  · intro h
    exact ⟨(hexact userId).mpr (.inl rfl), hnodup.mpr h.spelling, hexact, fun h' => absurd h' ht⟩

/-- A 1:1 request is in order exactly if it names another user. -/
theorem spelledOnce_iff {userId v : ObjectId} {input : CreateConversationInput} {m : Text}
    (ht : input.type = .oneToOne) (hm : input.members = [m]) (hv : ObjectId.cast m = some v) :
    SpelledOnce userId input ↔ v ≠ userId := by
  constructor
  · intro h heq
    exact h.other ht m (by simp [hm]) (heq ▸ hv)
  · intro hne
    constructor
    · intro a ha b hb heq
      rw [hm, List.mem_cons, List.mem_singleton] at ha hb
      rcases ha with rfl | rfl
      · rcases hb with rfl | rfl
        · rfl
        · rw [ObjectId.cast_toString, hv] at heq
          exact absurd (Option.some.inj heq).symm hne
      · rcases hb with rfl | rfl
        · rw [ObjectId.cast_toString, hv] at heq
          exact absurd (Option.some.inj heq) hne
        · rfl
    · intro _ m' hm' hself
      rw [hm, List.mem_singleton] at hm'
      rw [hm', hv] at hself
      exact hne (Option.some.inj hself)

theorem wellMade_iff_oneToOne {userId v : ObjectId} {input : CreateConversationInput}
    {c : Conversation} {m : Text} (ht : input.type = .oneToOne) (hm : input.members = [m])
    (hv : ObjectId.cast m = some v) (hc : v ≠ userId → c.members.Perm [userId, v]) :
    WellMade userId input c ↔ SpelledOnce userId input := by
  rw [spelledOnce_iff ht hm hv]
  have hgiven : ∀ id, (∃ m' ∈ input.members, ObjectId.cast m' = some id) ↔ id = v := by
    intro id
    rw [hm]
    simp [hv, eq_comm]
  constructor
  · rintro h rfl
    -- With oneself there is one member, not two.
    have hset : c.members.toFinset = {v} := by
      ext id
      rw [List.mem_toFinset, h.exact, hgiven, or_self, Finset.mem_singleton]
    have hcard := h.pair ht
    rw [hset, Finset.card_singleton] at hcard
    cases hcard
  · intro hne
    have hperm := hc hne
    have hnodup : [userId, v].Nodup := by simp [hne.symm]
    have hmem : ∀ id, id ∈ c.members ↔ id = userId ∨ id = v := by
      intro id
      rw [hperm.mem_iff]
      simp
    refine ⟨(hmem userId).mpr (.inl rfl), hperm.nodup_iff.mpr hnodup, fun id => ?_, fun _ => ?_⟩
    · rw [hmem, hgiven]
    · rw [List.toFinset_eq_of_perm _ _ hperm, List.toFinset_card_of_nodup hnodup]
      rfl

/-! ### What is returned -/

section
variable (D : Deployment)

/-- A conversation that was found has the members that were looked for. -/
theorem perm_of_matches {members : List ObjectId} {c : Conversation} (hnodup : members.Nodup)
    (h : matchesOneToOne members c = true) : c.members.Perm members := by
  simp only [matchesOneToOne, Bool.and_eq_true, beq_iff_eq, List.all_eq_true,
    List.contains_iff_mem] at h
  obtain ⟨⟨_, hall⟩, hlength⟩ := h
  exact ((hnodup.subperm hall).perm_of_length_le hlength.le).symm

/-- What a request is answered with is in order if the request was, and only then. -/
def InOrder (userId : ObjectId) (input : CreateConversationInput) (r : Except Failure Conversation) :
    Prop :=
  ∀ c, r = .ok c → (WellMade userId input c ↔ SpelledOnce userId input)

/-- Where a pair of spellings is read, each of the two denotes an id. -/
theorem cast_of_pair {userId : ObjectId} {m : Text} {ids : List ObjectId}
    (h : (fromSet [userId.toString, m]).mapM ObjectId.cast = some ids) :
    ∃ v, ObjectId.cast m = some v := by
  cases hv : ObjectId.cast m with
  | some v => exact ⟨v, rfl⟩
  | none =>
    rw [fromSet_pair] at h
    split at h
    · rename_i heq
      rw [heq, ObjectId.cast_toString] at hv
      cases hv
    · simp [hv] at h

theorem perm_of_pair {userId v : ObjectId} {m : Text} {ids : List ObjectId}
    (h : (fromSet [userId.toString, m]).mapM ObjectId.cast = some ids)
    (hv : ObjectId.cast m = some v) (hne : v ≠ userId) : ids.Nodup ∧ ids.Perm [userId, v] := by
  obtain ⟨members, hcast, hnodup, hset⟩ := cast_pair hv fun heq => absurd heq hne
  obtain rfl : ids = members := Option.some.inj (h.symm.trans hcast)
  refine ⟨hnodup, List.perm_of_nodup_nodup_toFinset_eq hnodup (by simp [hne.symm]) ?_⟩
  rw [hset]
  simp

theorem conversationCreate_inOrder {id userId : ObjectId} {input : CreateConversationInput}
    (hone : input.type = .oneToOne → ∃ m, input.members = [m]) {now : Nat} {s : Server}
    {c : Conversation} (h : (Server.answer D (.conversationCreate id input.type input.name
      (fromSet (userId.toString :: input.members)) now) s).1 = .ok c) :
    WellMade userId input c ↔ SpelledOnce userId input := by
  obtain ⟨_, _, hcast⟩ := Server.conversationCreate_answer h
  by_cases ht : input.type = .oneToOne
  · obtain ⟨m, hm⟩ := hone ht
    rw [hm] at hcast
    obtain ⟨v, hv⟩ := cast_of_pair hcast
    exact wellMade_iff_oneToOne ht hm hv fun hne => (perm_of_pair hcast hv hne).2
  · exact wellMade_iff_group ht hcast

theorem createConversation_ends (id userId : ObjectId) {input : CreateConversationInput}
    (hone : input.type = .oneToOne → ∃ m, input.members = [m]) :
    (createConversation id userId input).Ends (Gives (chat D)) (InOrder userId input) := by
  have hcreate : ∀ now, (query (.conversationCreate id input.type input.name
      (fromSet (userId.toString :: input.members)) now)).Ends (Gives (chat D))
        (InOrder userId input) := by
    intro now
    apply (Program.ends_query _ _).mpr
    intro r hr c hc
    rcases hr with rfl | ⟨s, rfl⟩
    · cases hc
    · exact conversationCreate_inOrder D hone hc
  unfold createConversation
  by_cases ht : input.type = .oneToOne
  · simp only [ht, if_true]
    refine (Program.ends_bind _ _).mpr ((Program.ends_query _ _).mpr fun r hr => ?_)
    rcases r with e | found
    · intro c hc
      cases hc
    · cases found with
      | none => exact fun now => ht ▸ hcreate now
      | some c =>
        intro c' hc'
        obtain rfl : c = c' := Except.ok.inj hc'
        rcases hr with hr | ⟨s, hr⟩
        · cases hr
        · obtain ⟨members, hcast, hfind⟩ := lookup_answer D hr.symm
          obtain ⟨m, hm⟩ := hone ht
          rw [hm] at hcast
          obtain ⟨v, hv⟩ := cast_of_pair hcast
          apply wellMade_iff_oneToOne ht hm hv
          intro hne
          obtain ⟨hnodup, hperm⟩ := perm_of_pair hcast hv hne
          exact (perm_of_matches hnodup (List.find?_some hfind)).trans hperm
  · simp only [ht, if_false]
    exact fun now => hcreate now

/-- What a finished request owes. -/
def Answered (call : Call) (r : Except Failure Response) : Prop :=
  ∀ userId body id input c, call = .createConversation userId body id →
    createConversationSchema.parse body = .ok input → r = .ok (.conversation c) →
      (WellMade userId input c ↔ SpelledOnce userId input)

theorem body_answered (call : Call) : (Call.body D call).Ends (Gives (chat D)) (Answered call) := by
  cases call with
  | createConversation userId body id =>
    show (createConversationHandler id userId body).Ends _ _
    unfold createConversationHandler
    split
    · intro _ _ _ _ _ _ _ h
      cases h
    · rename_i input hparse
      refine (Program.ends_bind _ _).mpr ((createConversation_ends D id userId
        (createConversation_oneToOne hparse)).mono fun r hr => ?_)
      rcases r with e | c
      · intro _ _ _ _ _ _ _ h
        cases h
      · intro _ _ _ input' c' hcall hparse' h
        cases hcall
        cases h
        obtain rfl : input = input' := Except.ok.inj (hparse.symm.trans hparse')
        exact hr c rfl
  | _ =>
    refine (Program.Ends.trivial _).mono fun r _ => ?_
    intro _ _ _ _ _ hcall
    cases hcall

/-- **The members.** In every run from any state, the conversation that a request is answered
with has as members the caller and those named, each once, and two users for a 1:1,
exactly if the request spells no user in two ways and no 1:1 request names its caller. -/
theorem wellMade_iff (s : Server) (moves : List (Move Call)) (pid : Nat) (userId id : ObjectId)
    (body : Value) (input : CreateConversationInput) (c : Conversation)
    (hparse : createConversationSchema.parse body = .ok input)
    (hdone : ((chat D).run (Config.start s) moves).tasks[pid]? =
      some ⟨.createConversation userId body id, .done (.ok (.conversation c))⟩) :
    WellMade userId input c ↔ SpelledOnce userId input :=
  ended_run (body_answered D) s moves hdone userId body id input c rfl hparse rfl

end

/-! A user asks for a group with another, who is spelled in one way or in two. -/

def groupBody (members : List Text) : Value :=
  .object [("type", .string "group".toList), ("name", .string "team".toList),
    ("members", .array (members.map Value.string))]

def groupRequest (members : List Text) : List (Move Call) :=
  [.arrive (.createConversation (.ending 1) (groupBody members) (.ending 5)), .answer 0, .resume 0]

def groupOf (members : List ObjectId) : Conversation :=
  ⟨.ending 5, .group, some "team".toList, members, none, 5, 5⟩

theorem wellMade_iff_team :
    WellMade (.ending 1) ⟨.group, some "team".toList, [ObjectId.capitals]⟩
        (groupOf [.ending 1, .ending 10]) ↔
      SpelledOnce (.ending 1) ⟨.group, some "team".toList, [ObjectId.capitals]⟩ :=
  wellMade_iff .default noConversations (groupRequest [ObjectId.capitals]) 0 (.ending 1) (.ending 5)
    (groupBody [ObjectId.capitals]) _ _ rfl rfl

theorem groupRequest_twice : ¬ ∀ (s : Server) (moves : List (Move Call)) (pid : Nat)
    (userId id : ObjectId) (body : Value) (input : CreateConversationInput) (c : Conversation),
    createConversationSchema.parse body = .ok input →
    ((chat .default).run (Config.start s) moves).tasks[pid]? =
      some ⟨.createConversation userId body id, .done (.ok (.conversation c))⟩ →
    WellMade userId input c := by
  intro h
  have hmade := h noConversations (groupRequest [(ObjectId.ending 10).toString, ObjectId.capitals]) 0
    (.ending 1) (.ending 5) _ ⟨.group, some "team".toList, [(ObjectId.ending 10).toString, ObjectId.capitals]⟩
    (groupOf [.ending 1, .ending 10, .ending 10]) rfl rfl
  exact absurd hmade.nodup (by decide)

end RealtimeChat
