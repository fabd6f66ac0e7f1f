import RealtimeChat.Async.Fate
import RealtimeChat.Board.Refinement
import RealtimeChat.Handlers.Vouched

/-! What a request is refused for.

`validate`, the services and the database each have errors of their own, and
`errorHandler` turns them all into a status. In every run, whatever is interleaved and
whatever fails, the status says whose fault it is: 400 that the request makes no sense,
404 that its user is not a member, and 500 is left for the database (`refused_rightly`). No
id and no cursor that has come through the validators is one that the database cannot
read. -/
namespace RealtimeChat
open Data (Text Collection)
open Zod (Value)
open Async Async.System
open Async.Program

/-- The call is a REST request. -/
def Call.isRequest : Call → Bool
  | .createConversation _ _ _ => true
  | .listConversations _ => true
  | .getMessageHistory _ _ _ => true
  | _ => false

/-- The request makes no sense, whatever is stored. -/
def Call.Malformed : Call → Prop
  | .createConversation _ body _ => ∃ errors, createConversationSchema.parse body = .error errors
  | .getMessageHistory _ id page => paginationQuerySchema page ≠ [] ∨ ObjectId.isValid id = false
  | _ => False

/-- The request is for a conversation that its user is not a member of. -/
def Call.Foreign (s : Server) : Call → Prop
  | .getMessageHistory userId id _ => ∃ k, ObjectId.cast id = some k ∧ ¬ IsMember k userId s
  | _ => False

/-- Whatever is stored, the query can be answered, unless an id is taken. -/
def Query.Sensible (D : Deployment) (q : Query) : Prop :=
  ∀ s e, (Server.answer D q s).1 = .error e → e = .duplicateKey

/-- What a task has found out by the time that it is refused for `e`. -/
inductive Refusing (D : Deployment) (call : Call) (before : Deeds) (e : Failure) : Prop where
  | malformed (h : call.Malformed) (hcode : e.statusCode = 400)
  | foreign {userId : ObjectId} {id : Text} {page : PaginationQuery}
    (hcall : call = .getMessageHistory userId id page)
    (hfound : .answered (.conversationFindOne (.string id) userId) (.ok none) ∈ before)
    (hcode : e.statusCode = 404)
  | failed {q : Query} (hq : q.Sensible D) (hfailed : .answered q (.error e) ∈ before)

/-- A malformed request is refused for that. -/
def refusing (D : Deployment) (call : Call) (before : Deeds) (r : Except Failure Response) : Prop :=
  call.isRequest = true → (call.Malformed → ∃ e, r = .error e ∧ e.statusCode = 400) ∧
    ∀ e, r = .error e → Refusing D call before e

section
variable {D : Deployment}

theorem sensible_of_ok {q : Query} (h : ∀ s, ∃ v, (Server.answer D q s).1 = .ok v) : q.Sensible D := by
  intro s e he
  obtain ⟨v, hv⟩ := h s
  cases hv.symm.trans he

theorem cast_of_isValid {id : Text} (h : ObjectId.isValid id = true) : ∃ k, ObjectId.cast id = some k :=
  Option.isSome_iff_exists.mp ((ObjectId.isSome_cast id).trans h)

theorem findOne_sensible {id : Text} (h : ObjectId.isValid id = true) (userId : ObjectId) :
    Query.Sensible D (.conversationFindOne (.string id) userId) := by
  obtain ⟨k, hk⟩ := cast_of_isValid h
  refine sensible_of_ok fun s => ⟨s.findOne k userId, ?_⟩
  show (Server.casting (ObjectId.cast id) s _).1 = _
  rw [hk]
  rfl

theorem mapM_cast_of_isValid {ids : List Text} (h : ∀ id ∈ ids, ObjectId.isValid id = true) :
    ∃ ks, ids.mapM ObjectId.cast = some ks := by
  induction ids with
  | nil => exact ⟨[], rfl⟩
  | cons id rest ih =>
    obtain ⟨k, hk⟩ := cast_of_isValid (h id List.mem_cons_self)
    obtain ⟨ks, hks⟩ := ih fun id hid => h id (List.mem_cons_of_mem _ hid)
    exact ⟨k :: ks, by rw [List.mapM_cons, hk, hks]; rfl⟩

theorem findOneToOne_sensible {ids : List Text} (h : ∀ id ∈ ids, ObjectId.isValid id = true) :
    Query.Sensible D (.conversationFindOneToOne ids) := by
  obtain ⟨ks, hks⟩ := mapM_cast_of_isValid h
  refine sensible_of_ok fun s => ⟨s.conversations.docs.find? (Server.matchesOneToOne ks), ?_⟩
  simp only [Server.answer, hks]

theorem conversationCreate_sensible {ids : List Text} (h : ∀ id ∈ ids, ObjectId.isValid id = true)
    (id : ObjectId) (type : ConversationType) (name : Option Text) (now : Nat) :
    Query.Sensible D (.conversationCreate id type name ids now) := by
  obtain ⟨ks, hks⟩ := mapM_cast_of_isValid h
  intro s e he
  simp only [Server.answer, hks, Server.createConversation] at he
  split at he
  · cases he
  · exact (Except.error.inj he).symm

/-- A cursor that the validator lets through is a date. -/
theorem cursorOf_date {page : PaginationQuery} (h : paginationQuerySchema page = []) :
    cursorOf page.before ≠ some none := by
  have hdate : page.before.all isDatetime = true := by
    by_contra hdate
    rw [paginationQuerySchema, if_neg hdate] at h
    simp at h
  unfold cursorOf
  cases hbefore : page.before with
  | none => simp
  | some before =>
    rw [hbefore] at hdate
    have hread := (Bool.and_eq_true_iff.mp hdate).2
    intro hnone
    obtain ⟨text, htext, hparse⟩ := Option.map_eq_some_iff.mp hnone
    obtain rfl := Option.some.inj (Option.filter_eq_some_iff.mp htext).1
    rw [IsoDate.parse, Option.map_eq_none_iff] at hparse
    rw [hparse] at hread
    cases hread

theorem messageFind_sensible {id : Text} (h : ObjectId.isValid id = true) {page : PaginationQuery}
    (hpage : paginationQuerySchema page = []) (limit : Nat) :
    Query.Sensible D (.messageFind id (cursorOf page.before) limit) := by
  obtain ⟨k, hk⟩ := cast_of_isValid h
  have hdate := cursorOf_date hpage
  refine sensible_of_ok fun s => ?_
  simp only [Server.answer, hk, Server.casting]
  rcases hcursor : cursorOf page.before with _ | _ | t
  · exact ⟨_, rfl⟩
  · exact absurd hcursor hdate
  · exact ⟨_, rfl⟩

/-! ### The requests -/

variable {call : Call}

/-- What is asked on the way makes sense, and an error of it is passed on. -/
theorem refusing_query (call : Call) {α : Type} {before : Deeds} {E : Deeds → Except Failure α → Prop} {q : Query}
    (hq : q.Sensible D) {f : q.Answer → Chat α}
    (hE : ∀ after e, Refusing D call after e → E after (.error e))
    (hok : ∀ v, (f v).Obeys lawless E (.answered q (.ok v) :: before)) :
    ((query q).bind f).Obeys lawless E before :=
  lawless_query hok fun e => hE _ e (.failed hq (.head _))

theorem createConversation_refusing {userId id : ObjectId} {body : Value} {input : CreateConversationInput}
    (hparse : createConversationSchema.parse body = .ok input) :
    (createConversation id userId input).Obeys lawless (fun after r => ∀ e, r = .error e →
      Refusing D (.createConversation userId body id) after e) [] := by
  have hvalid : ∀ m ∈ fromSet (userId.toString :: input.members), ObjectId.isValid m = true := by
    intro m hm
    rcases List.mem_cons.mp (mem_fromSet.mp hm) with rfl | hm
    · exact ObjectId.isValid_toString userId
    · exact createConversation_isValid hparse m hm
  have hcreate : ∀ before : Deeds, ((perform .now).bind fun now =>
      query (.conversationCreate id input.type input.name
        (fromSet (userId.toString :: input.members)) now)).Obeys lawless (fun after r => ∀ e, r = .error e →
          Refusing D (.createConversation userId body id) after e) before := by
    intro before
    refine obeys_bind.mpr fun now => ⟨trivial, obeys_query.mpr fun r => ⟨trivial, ?_⟩⟩
    rintro e rfl
    exact .failed (conversationCreate_sensible hvalid _ _ _ _) (.head _)
  unfold createConversation
  split
  · refine refusing_query (.createConversation userId body id) (findOneToOne_sensible hvalid)
      (fun _ e h e' he => Except.error.inj he ▸ h) fun existing => ?_
    cases existing with
    | none => exact hcreate _
    | some existing => exact nofun
  · exact hcreate _

theorem refusing_malformed {before : Deeds} {message : String} (h : call.Malformed) :
    refusing D call before (.error (.app message 400)) := by
  intro _
  refine ⟨fun _ => ⟨_, rfl, rfl⟩, fun e he => ?_⟩
  cases he
  exact .malformed h rfl

/-- A request that makes sense. -/
theorem refusing_of_sense {before : Deeds} {r : Except Failure Response} (hsense : ¬ call.Malformed)
    (h : ∀ e, r = .error e → Refusing D call before e) : refusing D call before r :=
  fun _ => ⟨fun hmalformed => absurd hmalformed hsense, h⟩

theorem createConversationHandler_refusing (id userId : ObjectId) (body : Value) :
    (createConversationHandler id userId body).Obeys lawless
      (refusing D (.createConversation userId body id)) [] := by
  unfold createConversationHandler
  split
  · rename_i errors hparse
    exact refusing_malformed ⟨errors, hparse⟩
  · rename_i input hparse
    have hsense : ¬ (Call.createConversation userId body id).Malformed := by
      intro h
      obtain ⟨errors, herrors⟩ := h
      cases hparse.symm.trans herrors
    refine obeys_bind.mpr ((createConversation_refusing (D := D) hparse).mono fun after r h => ?_)
    rcases r with e | c
    · exact refusing_of_sense hsense fun e' he => by cases he; exact h e rfl
    · exact refusing_of_sense hsense nofun

theorem listConversationsHandler_refusing (userId : ObjectId) :
    (listConversationsHandler userId).Obeys lawless (refusing D (.listConversations userId)) [] := by
  have hsense : ¬ (Call.listConversations userId).Malformed := id
  have hE : ∀ (after : Deeds) e, Refusing D (.listConversations userId) after e →
      refusing D (.listConversations userId) after (.error e) := fun after e h =>
    refusing_of_sense hsense fun e' he => by cases he; exact h
  refine obeys_bind.mpr (refusing_query (.listConversations userId)
    (sensible_of_ok fun s => ⟨_, rfl⟩) hE fun found => ?_)
  split
  · exact refusing_of_sense hsense nofun
  · exact refusing_query (.listConversations userId) (sensible_of_ok fun s => ⟨_, rfl⟩) hE
      fun unreadCounts => refusing_of_sense hsense nofun

theorem getMessageHistoryHandler_refusing (userId : ObjectId) (id : Text) (page : PaginationQuery) :
    (getMessageHistoryHandler D userId id page).Obeys lawless
      (refusing D (.getMessageHistory userId id page)) [] := by
  show ((rejectInvalid (paginationQuerySchema page)).bind _).Obeys _ _ _
  unfold rejectInvalid
  cases hpage : paginationQuerySchema page with
  | cons error errors => exact refusing_malformed (.inl (by rw [hpage]; exact List.cons_ne_nil _ _))
  | nil =>
    show ((assertMembership D (.string id) userId).bind _).Obeys _ _ _
    unfold assertMembership
    cases hid : ObjectId.isValid id with
    | false =>
      have hinvalid : D.isValid (.string id) = false := hid
      simp only [hinvalid]
      exact refusing_malformed (.inr hid)
    | true =>
      have hvalid : D.isValid (.string id) = true := hid
      have hsense : ¬ (Call.getMessageHistory userId id page).Malformed := by
        rintro (h | h)
        · exact h hpage
        · cases hid.symm.trans h
      have hE : ∀ (after : Deeds) e, Refusing D (.getMessageHistory userId id page) after e →
          refusing D (.getMessageHistory userId id page) after (.error e) := fun after e h =>
        refusing_of_sense hsense fun e' he => by cases he; exact h
      simp only [hvalid]
      refine obeys_bind.mpr (refusing_query (.getMessageHistory userId id page)
        (findOne_sensible hid userId) hE fun found => ?_)
      cases found with
      | none => exact hE _ _ (.foreign rfl (.head _) rfl)
      | some conversation =>
        exact obeys_bind.mpr (refusing_query (.getMessageHistory userId id page)
          (messageFind_sensible hid hpage _) hE fun messages => refusing_of_sense hsense nofun)

/-- **Whatever a request is refused for**, the task has found out. -/
theorem body_refusing (D : Deployment) (call : Call) :
    (Call.body D call).Obeys lawless (refusing D call) [] := by
  have hother : ∀ {call : Call} {p : Chat Unit}, call.isRequest = false →
      (p.bind fun _ => (.ret .none : Chat Response)).Obeys lawless (refusing D call) [] := by
    intro call p hcall
    have h : ∀ (before : Deeds) r, refusing D call before r := fun _ _ hrequest => by
      rw [hcall] at hrequest
      cases hrequest
    exact Obeys.bind_of (fun _ _ => h _ _) fun _ _ => h _ _
  cases call with
  | createConversation userId body id => exact createConversationHandler_refusing id userId body
  | listConversations userId => exact listConversationsHandler_refusing userId
  | getMessageHistory userId id page => exact getMessageHistoryHandler_refusing userId id page
  | _ => exact hother rfl

end

/-! ### Whole runs -/

theorem not_member_of_none {D : Deployment} {s : Server} {id : Text} {userId : ObjectId}
    (h : (Server.answer D (.conversationFindOne (.string id) userId) s).1 = .ok none) :
    ∃ k, ObjectId.cast id = some k ∧ ¬ IsMember k userId s := by
  simp only [Server.answer, Deployment.cast, Server.casting] at h
  split at h
  · rename_i k hk
    refine ⟨k, hk, fun hmember => ?_⟩
    obtain ⟨c, hc, rfl, hin⟩ := hmember
    have hfind := Option.filter_eq_none_iff.mp (Except.ok.inj h) c (Collection.find_eq_some.mpr ⟨hc, rfl⟩)
    exact hfind (List.contains_iff_mem.mpr hin)
  · cases h

/-- A request that has come to its end, and what it was refused for if it was. -/
theorem refused_cases {D : Deployment} {s : Server} {before after : List (Move Call)} {call : Call}
    {r : Except Failure Response} (hrequest : call.isRequest = true)
    (htask : ((chat D).run (Config.start s) (before ++ .arrive call :: after)).tasks[
      ((chat D).run (Config.start s) before).tasks.length]? = some ⟨call, .done r⟩) :
    (call.Malformed → ∃ e, r = .error e ∧ e.statusCode = 400) ∧ ∀ e, r = .error e →
      (call.Malformed ∧ e.statusCode = 400) ∨
      (e.statusCode = 404 ∧ call.Foreign ((chat D).run (Config.start s) before).world.state) ∨
      (e.statusCode = 500 ∧ (e = .queryFailed ∨ e = .duplicateKey) ∧ ∃ q,
        .answered ((chat D).run (Config.start s) before).tasks.length q (.error e) ∈
          ((chat D).run (Config.start s) (before ++ .arrive call :: after)).world.log) := by
  rw [System.run_append] at htask ⊢
  have hstart : Obedient (fun _ => lawless) (refusing D) ((chat D).run (Config.start s) before) :=
    (Obedient.start s).run (chat D) (body_refusing D) before
  have hrun := hstart.run (chat D) (body_refusing D) (.arrive call :: after)
  -- Whatever the task has been answered, it has been answered since it is there.
  have hanswering : ∀ {q : Query} {answer : Except Failure q.Answer}, .answered q answer ∈
      deeds ((chat D).run (Config.start s) before).tasks.length ((chat D).run
        ((chat D).run (Config.start s) before) (.arrive call :: after)).world.log →
      ∃ on, (chat D).Answering q ((chat D).run (Config.start s) (before ++ on)).world.state answer := by
    intro q answer h
    rcases (chat D).run_answering (mem_deeds_answered.mp h) with hthere | ⟨on, -, hanswer⟩
    · exact absurd (hstart.numbered _ hthere) (Nat.lt_irrefl _)
    · exact ⟨on, by rwa [System.run_append]⟩
  obtain ⟨hmalformed, hrefused⟩ := hrun.obeys _ _ htask hrequest
  refine ⟨hmalformed, fun e he => ?_⟩
  cases hrefused e he with
  | malformed h hcode => exact .inl ⟨h, hcode⟩
  | @foreign userId id page hcall hfound hcode =>
    subst hcall
    obtain ⟨on, hanswer | ⟨-, hfault⟩⟩ := hanswering hfound
    · obtain ⟨k, hk, hout⟩ := not_member_of_none hanswer.symm
      refine .inr (.inl ⟨hcode, k, hk, fun hmember => hout ?_⟩)
      obtain ⟨_, hsteps, -⟩ := board_steps D s before on
      exact board_member.mp ((board_member.mpr hmember).grown (Board.grown_steps hsteps))
    · cases hfault
  | @failed q hq hfailed =>
    obtain ⟨on, hanswer | ⟨-, hfault⟩⟩ := hanswering hfailed
    · obtain rfl := hq _ e hanswer.symm
      exact .inr (.inr ⟨rfl, .inr rfl, q, mem_deeds_answered.mp hfailed⟩)
    · cases hfault
      exact .inr (.inr ⟨rfl, .inl rfl, q, mem_deeds_answered.mp hfailed⟩)

/-- **The status says whose fault it is.** In every run, whatever is interleaved and whatever fails:
a request is refused with 400 exactly if it makes no sense, and with 404 only if its user was not a
member when it arrived. Anything else that it is refused for, the database has answered, because a
query did not get through or an `_id` was taken; and then the status is 500. -/
theorem refused_rightly (D : Deployment) (s : Server) (before after : List (Move Call)) (call : Call)
    (r : Except Failure Response) (hrequest : call.isRequest = true)
    (htask : ((chat D).run (Config.start s) (before ++ .arrive call :: after)).tasks[
      ((chat D).run (Config.start s) before).tasks.length]? = some ⟨call, .done r⟩) :
    (call.Malformed ↔ ∃ e, r = .error e ∧ e.statusCode = 400) ∧ ∀ e, r = .error e →
      e.statusCode = 400 ∨
      (e.statusCode = 404 ∧ call.Foreign ((chat D).run (Config.start s) before).world.state) ∨
      (e.statusCode = 500 ∧ (e = .queryFailed ∨ e = .duplicateKey) ∧ ∃ q,
        .answered ((chat D).run (Config.start s) before).tasks.length q (.error e) ∈
          ((chat D).run (Config.start s) (before ++ .arrive call :: after)).world.log) := by
  obtain ⟨hmalformed, hcases⟩ := refused_cases hrequest htask
  refine ⟨⟨hmalformed, fun h => ?_⟩, fun e he => (hcases e he).imp_left And.right⟩
  obtain ⟨e, he, hcode⟩ := h
  rcases hcases e he with ⟨h, -⟩ | ⟨h, -⟩ | ⟨h, -⟩
  · exact h
  · cases hcode.symm.trans h
  · cases hcode.symm.trans h

/-- A user asks for a conversation of two others. -/
def prying : Call := .getMessageHistory (.ending 9) otherConversation.id.toString ⟨50, none⟩

def pryingServer : Server := .boot .empty bothConversations otherMessages 0

theorem refused_rightly_prying : prying.Foreign pryingServer := by
  obtain ⟨-, hrefused⟩ := refused_rightly .default pryingServer [] [.answer 0, .resume 0] prying
    (.error (.app "Conversation not found" 404)) rfl rfl
  rcases hrefused _ rfl with h | ⟨-, h⟩ | ⟨h, -⟩
  · cases h
  · exact h
  · cases h

end RealtimeChat
