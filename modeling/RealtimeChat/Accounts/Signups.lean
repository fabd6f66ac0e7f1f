import RealtimeChat.Accounts.Conflict
import RealtimeChat.Async.Progress

/-! How signups are answered that overlap.

`signup` looks whether the email and the username are free, hashes the password, and creates
the user. The unique indexes refuse the user of a signup that has been overtaken in between;
`errorHandler` knows nothing of a duplicate key and answers with 500. A signup that comes after
too many others is answered with 429 (`signups_iff`). -/
namespace RealtimeChat
open Data (Text trim toLowerCase utf8)
open Zod (Value Schema)
open Async Async.System Async.Program

/-- The `_id` of the user, should one be created. -/
def AuthCall.newId : AuthCall → Option ObjectId
  | .signup _ _ id _ => some id
  | .login _ _ => none

/-- Requests to sign up, with bodies that are accepted and with ids of their own for the users.
All queries get through. -/
structure Signups (L : Library) (moves : List (Move AuthCall)) : Prop where
  accepted : ∀ call ∈ calls moves, ∃ limited body id salt input,
    call = .signup limited body id salt ∧ (signupSchema L).parse body = .ok input
  ids : ((calls moves).map AuthCall.newId).Nodup
  through : ∀ pid, .fail pid ∉ moves

structure SignupResponse where
  statusCode : Nat
  data : Option AuthResult

/-- What `signupHandler` answers with, or `errorHandler` for it. -/
def signupResponse : Except Failure AuthResult → SignupResponse
  | .ok result => ⟨201, some result⟩
  | .error e => ⟨e.statusCode, none⟩

/-- Either 201 with a user who is stored, or 409. -/
def SignupResponse.Right (s : AuthServer) (response : SignupResponse) : Prop :=
  (response.statusCode = 201 ∧ ∃ result ∈ response.data, result.user ∈ s.accounts.docs) ∨
    response.statusCode = 409

structure SignupsRight (c : AuthConfig) : Prop where
  emails : (c.world.state.accounts.docs.map fun user => user.email).Nodup
  usernames : (c.world.state.accounts.docs.map fun user => user.username).Nodup
  answered : ∀ entry ∈ c.tasks, ∃ r, entry.task = .done r ∧ (signupResponse r).Right c.world.state

def Created (user : Account) (log : AuthLog) : Prop :=
  ∃ pid id username email passwordHash now,
    .answered pid (.userCreate id username email passwordHash now) (.ok user) ∈ log

/-- When a user is to be created, none with the email or the username has been. -/
def NoneAhead (log : AuthLog) : Prop :=
  ∀ later pid id username email passwordHash now r earlier,
    log = later ++ .answered pid (.userCreate id username email passwordHash now) r :: earlier →
    ∀ user, Created user earlier →
      user.email ≠ toLowerCase (trim email) ∧ user.username ≠ trim username

/-! ### The end of a signup -/

def AuthCall.outcome (L : Library) : AuthCall → AuthDeeds → Except Failure AuthResult → Prop
  | .signup limited body _ _, before, r =>
    (limited = true → ∃ message, r = .error (.app message 429)) ∧
      (limited = false → ∀ input, (signupSchema L).parse body = .ok input → SigningUp.Outcome before r)
  | .login _ _, _, _ => True

theorem outcome_obeys (L : Library) (call : AuthCall) :
    (AuthCall.body L call).Obeys (call.law L) (call.outcome L) [] := by
  cases call with
  | signup limited body id salt =>
    refine authRateLimiter_obeys (fun hlimited message => ⟨fun _ => ⟨message, rfl⟩, fun hnot => ?_⟩)
      fun hthrough => ?_
    · cases hnot.symm.trans hlimited
    · show (validated (signupSchema L) body _).Obeys (SigningUp.law L body id salt) _ _
      unfold validated
      have hnot : ∀ {r : Except Failure AuthResult}, limited = true →
          ∃ message, r = .error (.app message 429) := fun h => by cases hthrough.symm.trans h
      split
      · rename_i herror
        refine ⟨hnot, fun _ input hparse => ?_⟩
        rw [hparse] at herror
        cases herror
      · exact (signup_obeys L ‹_›).mono fun before r h => ⟨hnot, fun _ _ _ => h⟩
  | login limited body => exact (auth_obeys L (.login limited body)).mono fun _ _ _ => trivial

theorem outcome_run (L : Library) (s : AuthServer) (moves : List (Move AuthCall)) :
    Obedient (AuthCall.law L) (AuthCall.outcome L) ((auth L).run (Config.start s) moves) :=
  (Obedient.start s).run (auth L) (outcome_obeys L) moves

/-! ### The moment of creation -/

/-- A user that can be stored is refused exactly where an index has one of its keys. -/
theorem AuthServer.createUser_error {user : Account} {s : AuthServer} (hvalid : validates user = true) :
    (∃ e, (s.createUser user).1 = .error e) ↔ ∃ other ∈ s.accounts.docs,
      other.id = user.id ∨ other.username = user.username ∨ other.email = user.email := by
  unfold createUser
  rw [if_pos hvalid]
  by_cases hnew : ∀ other ∈ s.accounts.docs,
      other.id ≠ user.id ∧ other.username ≠ user.username ∧ other.email ≠ user.email
  · rw [Accounts.insert, dif_pos hnew]
    refine iff_of_false ?_ ?_
    · intro h
      obtain ⟨e, h⟩ := h
      cases h
    · intro h
      obtain ⟨other, hmem, hsame⟩ := h
      obtain ⟨hid, husername, hemail⟩ := hnew other hmem
      exact hsame.elim hid fun h => h.elim husername hemail
  · rw [Accounts.insert, dif_neg hnew]
    refine iff_of_true ⟨_, rfl⟩ ?_
    by_contra hnone
    refine hnew fun other hmem => ⟨?_, ?_, ?_⟩
    · exact fun h => hnone ⟨other, hmem, .inl h⟩
    · exact fun h => hnone ⟨other, hmem, .inr (.inl h)⟩
    · exact fun h => hnone ⟨other, hmem, .inr (.inr h)⟩

section
variable {L : Library} {clock : Nat} {moves : List (Move AuthCall)}

/-- The tasks are those of the calls. -/
theorem auth_task {pid : Nat} {entry : Entry authInterface Failure AuthCall AuthResult}
    (hentry : ((auth L).run (Config.start (AuthServer.boot clock)) moves).tasks[pid]? = some entry) :
    (calls moves)[pid]? = some entry.call := by
  have hcalls := (auth L).run_calls (fun _ _ => rfl) (Config.start (AuthServer.boot clock)) moves
  have htask := congrArg (fun l : List AuthCall => l[pid]?) hcalls
  rw [List.getElem?_map, hentry] at htask
  exact htask.symm

theorem Signups.distinct (h : Signups L moves) {pid pid' : Nat} {call call' : AuthCall}
    (hpid : (calls moves)[pid]? = some call) (hpid' : (calls moves)[pid']? = some call')
    (hsame : call.newId = call'.newId) : pid = pid' := by
  have hid : ((calls moves).map AuthCall.newId)[pid]? = some call.newId := by
    rw [List.getElem?_map, hpid]
    rfl
  have hid' : ((calls moves).map AuthCall.newId)[pid']? = some call.newId := by
    rw [List.getElem?_map, hpid', hsame]
    rfl
  exact (List.getElem?_inj (List.getElem?_eq_some_iff.mp hid).1 h.ids).mp (hid.trans hid'.symm)

/-- An answer, in the state in which it was given. -/
theorem Signups.moment (h : Signups L moves) {pid : Nat} {q : AuthQuery}
    {r : Except Failure q.Answer} {later earlier : AuthLog}
    (hlog : ((auth L).run (Config.start (AuthServer.boot clock)) moves).world.log =
      later ++ .answered pid q r :: earlier) :
    ∃ before, ((auth L).run (Config.start (AuthServer.boot clock)) before).world.log = earlier ∧
      r = (AuthServer.answer L q
        ((auth L).run (Config.start (AuthServer.boot clock)) before).world.state).1 := by
  obtain ⟨before, hbefore, ⟨-, hanswer⟩ | ⟨hfail, -⟩⟩ := (auth L).run_moment hlog
  · exact ⟨before, hbefore, (congrArg Prod.fst hanswer).symm⟩
  · exact absurd (hfail.subset (List.mem_append_right _ (List.mem_singleton_self _))) (h.through pid)

/-- Who is stored has been created. -/
theorem created_iff {user : Account} :
    user ∈ ((auth L).run (Config.start (AuthServer.boot clock)) moves).world.state.accounts.docs ↔
      Created user ((auth L).run (Config.start (AuthServer.boot clock)) moves).world.log := by
  have hrecalled := run_recalled L clock moves
  constructor
  · exact hrecalled.stored user
  · intro h
    obtain ⟨pid, id, username, email, passwordHash, now, h⟩ := h
    exact (hrecalled.created h).1

theorem created_id {pid : Nat} {id : ObjectId} {username email passwordHash : Text} {now : Nat}
    {user : Account}
    (h : .answered pid (.userCreate id username email passwordHash now) (.ok user) ∈
      ((auth L).run (Config.start (AuthServer.boot clock)) moves).world.log) : user.id = id := by
  obtain ⟨later, earlier, hlog⟩ := List.append_of_mem h
  obtain ⟨before, -, -, hanswer⟩ := (auth L).run_answer hlog
  rw [(AuthServer.createUser_ok (congrArg Prod.fst hanswer)).1]

/-- What a signup is accepted with, passes the validators of the schema. -/
theorem Accepted.validates {input : SignupInput} (h : Accepted L input)
    (hemail : L.isEmail [] = false)
    (hhash : ∀ password salt, password ≠ [] → L.hash password salt ≠ [])
    (id : ObjectId) (salt : Text) (now : Nat) :
    AuthServer.validates ⟨⟨id, trim input.username, toLowerCase (trim input.email), .offline, now⟩,
      L.hash input.password salt⟩ = true := by
  have hgiven : input.email ≠ [] := by
    intro hnil
    have hisEmail := h.isEmail
    rw [hnil, hemail] at hisEmail
    cases hisEmail
  have hpassword : input.password ≠ [] := by
    intro hnil
    have hlong := h.password
    rw [hnil] at hlong
    exact absurd hlong (by decide)
  simp [AuthServer.validates, h.username, h.short.1, h.short.2, h.email, toLowerCase, hgiven,
    hhash _ salt hpassword]

/-- **When a user is refused**: if one with the email or the username has been created. -/
theorem Signups.create_error (h : Signups L moves) (hemail : L.isEmail [] = false)
    (hhash : ∀ password salt, password ≠ [] → L.hash password salt ≠ [])
    {pid : Nat} {id : ObjectId} {username email passwordHash : Text} {now : Nat}
    {r : Except Failure Account} {later earlier : AuthLog}
    (hlog : ((auth L).run (Config.start (AuthServer.boot clock)) moves).world.log =
      later ++ .answered pid (.userCreate id username email passwordHash now) r :: earlier) :
    (∃ e, r = .error e) ↔ ∃ user, Created user earlier ∧
      (user.email = toLowerCase (trim email) ∨ user.username = trim username) := by
  obtain ⟨limited, body, salt, input, task, htask, hparse, rfl, rfl, rfl, honce⟩ :=
    create_signup clock hlog
  obtain ⟨before, rfl, rfl⟩ := h.moment hlog
  have hvalid := (signup_accepted hparse).validates hemail hhash id salt now
  refine (AuthServer.createUser_error hvalid).trans ⟨fun hrefused => ?_, fun hcreated => ?_⟩
  · obtain ⟨user, hmem, hsame⟩ := hrefused
    refine ⟨user, created_iff.mp hmem, ?_⟩
    rcases hsame with hid | husername | hemail
    · -- The id is its own: nobody else can have been given it.
      obtain ⟨pid', id', username', email', passwordHash', now', hcreated⟩ := created_iff.mp hmem
      obtain rfl : id' = id := (created_id hcreated).symm.trans hid
      have hearlier := hcreated
      obtain ⟨later', earlier', hbelow⟩ := List.append_of_mem hcreated
      rw [hbelow, ← List.cons_append, ← List.append_assoc] at hlog
      obtain ⟨limited', body', salt', input', task', htask', -⟩ := create_signup clock hlog
      obtain rfl := h.distinct (auth_task htask) (auth_task htask') rfl
      exact absurd hearlier (honce _ _ _ _ _ _)
    · exact .inr husername
    · exact .inl hemail
  · obtain ⟨user, hcreated, hemail | husername⟩ := hcreated
    · exact ⟨user, created_iff.mpr hcreated, .inr (.inr hemail)⟩
    · exact ⟨user, created_iff.mpr hcreated, .inr (.inl husername)⟩

/-- Where all queries get through, only the creation of a user fails, and with a server error. -/
theorem Signups.failed (h : Signups L moves) {pid : Nat} {q : AuthQuery} {e : Failure}
    (hmem : .answered pid q (.error e) ∈
      ((auth L).run (Config.start (AuthServer.boot clock)) moves).world.log) :
    e.statusCode = 500 ∧ ∃ id username email passwordHash now,
      q = .userCreate id username email passwordHash now := by
  obtain ⟨s, hanswer⟩ := (auth L).run_given (AuthServer.boot clock) h.through _ hmem
  cases q with
  | userCreate id username email passwordHash now =>
    exact ⟨AuthServer.createUser_statusCode hanswer.symm, id, username, email, passwordHash, now, rfl⟩
  | _ => cases hanswer

/-- A request that is turned away is answered with neither 201 nor 409. -/
theorem Signups.limited_wrong (h : Signups L moves) {pid : Nat} {call : AuthCall}
    {r : Except Failure AuthResult}
    (hentry : ((auth L).run (Config.start (AuthServer.boot clock)) moves).tasks[pid]? =
      some ⟨call, .done r⟩) (hlimited : call.limited = true) (s : AuthServer) :
    ¬ (signupResponse r).Right s := by
  have hends := (outcome_run L (AuthServer.boot clock) moves).obeys pid _ hentry
  obtain ⟨limited, body, id, salt, input, rfl, hparse⟩ := h.accepted call
    (List.mem_of_getElem? (auth_task hentry))
  obtain ⟨message, rfl⟩ := hends.1 hlimited
  have hcode : (signupResponse (.error (.app message 429))).statusCode = 429 := rfl
  rintro (⟨hcreated, -⟩ | hconflict)
  · exact absurd (hcode.symm.trans hcreated) (by decide)
  · exact absurd (hcode.symm.trans hconflict) (by decide)

/-- A request that has been let through and has ended is answered rightly unless a query of its own
has failed. -/
theorem Signups.right_iff (h : Signups L moves) {pid : Nat} {call : AuthCall}
    {r : Except Failure AuthResult}
    (hentry : ((auth L).run (Config.start (AuthServer.boot clock)) moves).tasks[pid]? =
      some ⟨call, .done r⟩) (hthrough : call.limited = false) :
    (signupResponse r).Right ((auth L).run (Config.start (AuthServer.boot clock)) moves).world.state ↔
      ∀ q e, .answered pid q (.error e) ∉
        ((auth L).run (Config.start (AuthServer.boot clock)) moves).world.log := by
  have hends := (outcome_run L (AuthServer.boot clock) moves).obeys pid _ hentry
  obtain ⟨limited, body, id, salt, input, rfl, hparse⟩ := h.accepted call
    (List.mem_of_getElem? (auth_task hentry))
  have houtcome : SigningUp.Outcome _ r := hends.2 hthrough input hparse
  constructor
  · intro hright q e hfailed
    rw [houtcome.fails e ⟨q, mem_deeds_answered.mpr hfailed⟩] at hright
    have hcode : e.statusCode = 500 := (h.failed hfailed).1
    rcases hright with ⟨hcreated, -⟩ | hconflict
    · exact absurd (hcode.symm.trans hcreated) (by decide)
    · exact absurd (hcode.symm.trans hconflict) (by decide)
  · intro hnone
    cases r with
    | error e =>
      rcases houtcome.refuses e rfl with ⟨message, rfl⟩ | ⟨q, hfailed⟩
      · exact .inr rfl
      · exact absurd (mem_deeds_answered.mp hfailed) (hnone q e)
    | ok result =>
      obtain ⟨id, username, email, passwordHash, now, hcreated⟩ := houtcome.creates result rfl
      exact .inl ⟨rfl, result, rfl, created_iff.mpr
        ⟨pid, id, username, email, passwordHash, now, mem_deeds_answered.mp hcreated⟩⟩

/-- Signups under way can be answered and resumed until all have ended. -/
theorem Signups.finish (h : Signups L moves) :
    ∃ more, Signups L (moves ++ more) ∧ calls (moves ++ more) = calls moves ∧
      ∀ entry ∈ ((auth L).run (Config.start (AuthServer.boot clock)) (moves ++ more)).tasks,
        entry.task.isDone = true := by
  obtain ⟨more, hadvancing, hdone⟩ :=
    (auth L).finish ((auth L).run (Config.start (AuthServer.boot clock)) moves)
  have hmore : calls more = [] := by
    refine List.filterMap_eq_nil_iff.mpr fun m hm => ?_
    obtain ⟨pid, rfl | rfl⟩ := hadvancing m hm <;> rfl
  have hcalls : calls (moves ++ more) = calls moves := by
    rw [calls, List.filterMap_append]
    exact (congrArg _ hmore).trans (List.append_nil _)
  refine ⟨more, ⟨hcalls ▸ h.accepted, hcalls ▸ h.ids, fun pid hmem => ?_⟩, hcalls, ?_⟩
  · rcases List.mem_append.mp hmem with hmem | hmem
    · exact h.through pid hmem
    · obtain ⟨pid', hm | hm⟩ := hadvancing _ hmem <;> cases hm
  · rw [(auth L).run_append]
    exact hdone

/-- **Which overlapping signups are answered rightly**, once all of them have ended: those of which
none is turned away, and in which no user is to be created after another with the email or the
username. -/
theorem signups_iff (L : Library) (hemail : L.isEmail [] = false)
    (hhash : ∀ password salt, password ≠ [] → L.hash password salt ≠ []) (clock : Nat)
    (moves : List (Move AuthCall)) (hsignups : Signups L moves)
    (hdone : ∀ entry ∈ ((auth L).run (Config.start (AuthServer.boot clock)) moves).tasks,
      entry.task.isDone = true) :
    SignupsRight ((auth L).run (Config.start (AuthServer.boot clock)) moves) ↔
      (∀ call ∈ calls moves, call.limited = false) ∧
        NoneAhead ((auth L).run (Config.start (AuthServer.boot clock)) moves).world.log := by
  constructor
  · intro hright
    have hthrough : ∀ {pid : Nat} {call : AuthCall}, (calls moves)[pid]? = some call →
        call.limited = false := by
      intro pid call hcall
      have htasks := (auth L).run_calls (fun _ _ => rfl) (Config.start (AuthServer.boot clock)) moves
      have htask := congrArg (fun l : List AuthCall => l[pid]?) htasks
      rw [List.getElem?_map] at htask
      obtain ⟨entry, hentry, rfl⟩ := Option.map_eq_some_iff.mp (htask.trans hcall)
      obtain ⟨r, hr, hanswered⟩ := hright.answered entry (List.mem_of_getElem? hentry)
      rcases entry with ⟨call, task⟩
      obtain rfl : task = .done r := hr
      by_contra hlimited
      exact hsignups.limited_wrong hentry (by simpa using hlimited) _ hanswered
    refine ⟨fun call hcall => ?_, ?_⟩
    · obtain ⟨pid, hpid⟩ := List.getElem?_of_mem hcall
      exact hthrough hpid
    · intro later pid id username email passwordHash now r earlier hlog user hcreated
      by_contra hsame
      have hshared : user.email = toLowerCase (trim email) ∨ user.username = trim username := by
        by_contra hneither
        exact hsame ⟨fun h => hneither (.inl h), fun h => hneither (.inr h)⟩
      obtain ⟨e, rfl⟩ := (hsignups.create_error hemail hhash hlog).mpr ⟨user, hcreated, hshared⟩
      obtain ⟨call, task, htask, -⟩ := (auth_run L (AuthServer.boot clock) moves).law hlog rfl
      obtain ⟨r, rfl, hanswered⟩ := hright.answered _ (List.mem_of_getElem? htask)
      refine (hsignups.right_iff htask (hthrough (auth_task htask))).mp hanswered
        (.userCreate id username email passwordHash now) e ?_
      rw [hlog]
      exact List.mem_append_right _ (.head _)
  · intro h
    obtain ⟨hthrough, hnone⟩ := h
    refine ⟨Accounts.emails _, Accounts.usernames _, fun entry hentry => ?_⟩
    obtain ⟨pid, hpid⟩ := List.getElem?_of_mem hentry
    have hended := hdone entry hentry
    rcases entry with ⟨call, ⟨q, next⟩ | p | r⟩
    · cases hended
    · cases hended
    · have hcall := hthrough call (List.mem_of_getElem? (auth_task hpid))
      refine ⟨r, rfl, (hsignups.right_iff hpid hcall).mpr fun q e hfailed => ?_⟩
      obtain ⟨-, id, username, email, passwordHash, now, rfl⟩ := hsignups.failed hfailed
      obtain ⟨later, earlier, hlog⟩ := List.append_of_mem hfailed
      obtain ⟨user, hcreated, hsame⟩ := (hsignups.create_error hemail hhash hlog).mp ⟨e, rfl⟩
      obtain ⟨hother, hother'⟩ := hnone _ _ _ _ _ _ _ _ _ hlog user hcreated
      exact hsame.elim hother hother'

end

/-! Two signups that overlap: both look for their conflicts before either creates its user. -/

def overlapping (body body' : Value) : List (Move AuthCall) :=
  [.arrive (.signup false body (.ending 1) []), .arrive (.signup false body' (.ending 2) []),
    .answer 0, .resume 0, .answer 1, .resume 1, .answer 0, .resume 0, .answer 1, .resume 1,
    .answer 0, .resume 0, .answer 1, .resume 1]

theorem overlapping_signups {email : String} (hparse : (signupSchema plainLibrary).parse (annaBody email) =
    .ok (annaInput email)) : Signups plainLibrary (overlapping signupBody (annaBody email)) where
  accepted := by
    have hcalls : calls (overlapping signupBody (annaBody email)) =
      [.signup false signupBody (.ending 1) [], .signup false (annaBody email) (.ending 2) []] := rfl
    intro call hcall
    rw [hcalls] at hcall
    rcases List.mem_cons.mp hcall with rfl | hcall
    · exact ⟨_, _, _, _, ⟨"ann".toList, "ann@chat.io".toList, longPassword 72⟩, rfl, rfl⟩
    · obtain rfl := List.mem_singleton.mp hcall
      exact ⟨_, _, _, _, _, rfl, hparse⟩
  ids := by
    show [some (ObjectId.ending 1), some (ObjectId.ending 2)].Nodup
    decide
  through pid := by simp [overlapping]

theorem plainHash_ne_nil (password salt : Text) (h : password ≠ []) :
    plainLibrary.hash password salt ≠ [] := by
  intro hnil
  cases password with
  | nil => exact h rfl
  | cons c rest =>
    have hbytes : (utf8 (c :: rest)).take 72 = [] := List.map_eq_nil_iff.mp hnil
    have hfirst : String.utf8EncodeChar c = [] :=
      (List.append_eq_nil_iff.mp ((List.take_eq_nil_iff.mp hbytes).resolve_left (by decide))).1
    exact String.utf8EncodeChar_ne_nil hfirst

theorem signups_iff_overlapping :
    SignupsRight ((auth plainLibrary).run (Config.start (.boot 0))
        (overlapping signupBody (annaBody "anna@chat.io"))) ↔
      (∀ call ∈ calls (overlapping signupBody (annaBody "anna@chat.io")), call.limited = false) ∧
      NoneAhead ((auth plainLibrary).run (Config.start (.boot 0))
        (overlapping signupBody (annaBody "anna@chat.io"))).world.log :=
  signups_iff plainLibrary rfl plainHash_ne_nil 0 _ (overlapping_signups rfl)
    (List.all_eq_true.mp rfl)

/-- Both give the same email: the second is answered with 500. -/
theorem overtaken_fails : Signups plainLibrary (overlapping signupBody (annaBody "ann@chat.io")) ∧
    (∀ entry ∈ ((auth plainLibrary).run (Config.start (.boot 0))
      (overlapping signupBody (annaBody "ann@chat.io"))).tasks, entry.task.isDone = true) ∧
    ¬ SignupsRight ((auth plainLibrary).run (Config.start (.boot 0))
      (overlapping signupBody (annaBody "ann@chat.io"))) := by
  refine ⟨overlapping_signups rfl, List.all_eq_true.mp rfl, fun h => ?_⟩
  obtain ⟨r, hr, hright⟩ := h.answered ⟨.signup false (annaBody "ann@chat.io") (.ending 2) [],
    .done (.error .duplicateKey)⟩ (List.mem_of_getElem? (i := 1) rfl)
  cases hr
  rcases hright with ⟨hcreated, -⟩ | hconflict
  · exact absurd hcreated (by decide)
  · exact absurd hconflict (by decide)

end RealtimeChat
