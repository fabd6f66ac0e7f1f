import RealtimeChat.Accounts.Login
import RealtimeChat.Async.Alone
import RealtimeChat.Handlers.Chat

/-! Which field a refused signup names.

`signup` looks for a user with the email or the username. The setters of the schema
lower-case the email that is looked for, as they did those that are stored; the comparison
that picks the field for the message takes the email as it was given. A signup with capital
letters in an email that somebody has is refused for its username (`conflict_iff`). -/
namespace RealtimeChat
open Data (Text trim trim_trim toLowerCase toLowerCase_toLowerCase utf16Length)
open Zod (Value Schema)
open Async Async.System

inductive ConflictField where
  | email
  | username

/-- `conflictField` -/
def ConflictField.name : ConflictField → String
  | .email => "email"
  | .username => "username"

def ConflictField.failure (field : ConflictField) : Failure :=
  .app ("An account with this " ++ field.name ++ " already exists") 409

/-- A user has what the input gives for the field, normalised. -/
def Shares (s : AuthServer) (input : SignupInput) : ConflictField → Prop
  | .email => ∃ user ∈ s.accounts.docs, user.email = toLowerCase (trim input.email)
  | .username => ∃ user ∈ s.accounts.docs, user.username = trim input.username

/-- A signup that has ended with `r`: it is refused with 409 exactly if a field is shared, and
the message names one that is. -/
structure ConflictRight (s : AuthServer) (input : SignupInput) (r : Except Failure AuthResult) :
    Prop where
  refused : (∃ e, r = .error e ∧ e.statusCode = 409) ↔ ∃ field, Shares s input field
  named : ∀ e, r = .error e → e.statusCode = 409 → ∃ field : ConflictField,
    e = field.failure ∧ Shares s input field

section
variable {L : Library} {s : AuthServer}

/-- The users who have the email or the username. -/
def conflicting (s : AuthServer) (input : SignupInput) : List Account :=
  s.accounts.docs.filter fun user =>
    user.email == toLowerCase (trim input.email) || user.username == trim input.username

theorem mem_conflicting {input : SignupInput} {user : Account} :
    user ∈ conflicting s input ↔ user ∈ s.accounts.docs ∧
      (user.email = toLowerCase (trim input.email) ∨ user.username = trim input.username) := by
  rw [conflicting, List.mem_filter, Bool.or_eq_true, beq_iff_eq, beq_iff_eq]

theorem shares_iff {input : SignupInput} :
    (∃ field, Shares s input field) ↔ ∃ user, user ∈ conflicting s input := by
  constructor
  · intro h
    obtain ⟨_ | _, user, hmem, hsame⟩ := h
    · exact ⟨user, mem_conflicting.mpr ⟨hmem, .inl hsame⟩⟩
    · exact ⟨user, mem_conflicting.mpr ⟨hmem, .inr hsame⟩⟩
  · intro h
    obtain ⟨user, h⟩ := h
    obtain ⟨hmem, hsame | hsame⟩ := mem_conflicting.mp h
    · exact ⟨.email, user, hmem, hsame⟩
    · exact ⟨.username, user, hmem, hsame⟩

/-- Where somebody is found, the email decides which field is named. -/
theorem signup_conflict {input : SignupInput} {existing : Account}
    (h : L.pick (conflicting s input) = some existing) (id : ObjectId) (salt : Text) :
    ((auth L).alone (signup L id salt input) s).1 = .error
      (if existing.email = input.email then ConflictField.email else ConflictField.username).failure := by
  show ((auth L).alone ((Auth.query (.userFindConflict input.email input.username)).bind _) s).1 = _
  rw [alone_bind_query]
  have hanswer : (auth L).answer (.userFindConflict input.email input.username) s =
      (.ok (some existing), s) := by rw [← h]; rfl
  rw [hanswer]
  dsimp only
  split <;> rfl

/-- A user that is not created is one of a server error. -/
theorem AuthServer.createUser_statusCode {user : Account} {e : Failure}
    (h : (s.createUser user).1 = .error e) : e.statusCode = 500 := by
  unfold AuthServer.createUser at h
  split at h
  · split at h
    · cases h
    · cases h
      rfl
  · cases h
    rfl

/-- Where nobody is found, the signup is not refused with 409. -/
theorem signup_free {input : SignupInput} (h : L.pick (conflicting s input) = none) (id : ObjectId)
    (salt : Text) {e : Failure} (he : ((auth L).alone (signup L id salt input) s).1 = .error e) :
    e.statusCode = 500 := by
  change ((auth L).alone ((Auth.query (.userFindConflict input.email input.username)).bind _) s).1 = _
    at he
  rw [alone_bind_query] at he
  have hanswer : (auth L).answer (.userFindConflict input.email input.username) s =
      (.ok none, s) := by rw [← h]; rfl
  rw [hanswer] at he
  change ((auth L).alone ((Auth.query (.userCreate id input.username input.email
    (L.hash input.password salt) s.clock)).bind _) s).1 = _ at he
  rw [alone_bind_query] at he
  rcases hcreated : (auth L).answer (.userCreate id input.username input.email
    (L.hash input.password salt) s.clock) s with ⟨e' | user, t⟩
  · rw [hcreated] at he
    cases he
    exact AuthServer.createUser_statusCode (congrArg Prod.fst hcreated)
  · rw [hcreated] at he
    cases he

end

/-- Stored emails are in lower case. -/
theorem Recalled.lowerCase {w : World authInterface AuthServer Failure AuthCall} (h : Recalled w)
    {user : Account} (hmem : user ∈ w.state.accounts.docs) : toLowerCase user.email = user.email := by
  obtain ⟨pid, id, username, email, passwordHash, now, hcreated⟩ := h.stored user hmem
  rw [(h.created hcreated).2.1, toLowerCase_toLowerCase]

theorem ConflictField.failure_inj {field field' : ConflictField} (h : field.failure = field'.failure) :
    field = field' := by
  cases field <;> cases field'
  · rfl
  · exact absurd (Failure.app.inj h).1 (by decide)
  · exact absurd (Failure.app.inj h).1 (by decide)
  · rfl

/-- What a signup is accepted with, the setters of the schema leave as it is. -/
structure Accepted (L : Library) (input : SignupInput) : Prop where
  username : trim input.username = input.username
  short : 3 ≤ utf16Length input.username ∧ utf16Length input.username ≤ 30
  email : trim input.email = input.email
  isEmail : L.isEmail input.email = true
  password : 6 ≤ utf16Length input.password

theorem trimmed_eq_ok {v : Value} {s : Text} (h : Schema.string.trimmed v = ⟨some s, []⟩) :
    trim s = s := by
  obtain ⟨given, -, rfl⟩ := Schema.map_eq_ok.mp h
  exact trim_trim given

theorem signup_accepted {L : Library} {body : Value} {input : SignupInput}
    (h : (signupSchema L).parse body = .ok input) : Accepted L input := by
  obtain ⟨⟨username, email, password⟩, hfields, rfl⟩ :=
    Schema.map_eq_ok.mp (Schema.object_eq_ok (Schema.parse_eq_ok.mp h))
  obtain ⟨husername, hrest⟩ := Schema.both_eq_ok.mp hfields
  obtain ⟨hemail, hpassword⟩ := Schema.both_eq_ok.mp hrest
  obtain ⟨hlong, hmax⟩ := Schema.refine_eq_ok.mp (Schema.under_eq_ok.mp husername)
  obtain ⟨hread, hmin⟩ := Schema.refine_eq_ok.mp hlong
  obtain ⟨hgiven, hisEmail⟩ := Schema.refine_eq_ok.mp (Schema.under_eq_ok.mp hemail)
  obtain ⟨hpass, -⟩ := Schema.refine_eq_ok.mp (Schema.under_eq_ok.mp hpassword)
  exact ⟨trimmed_eq_ok hread, ⟨of_decide_eq_true hmin, of_decide_eq_true hmax⟩, trimmed_eq_ok hgiven,
    hisEmail, of_decide_eq_true (Schema.refine_eq_ok.mp hpass).2⟩

section
variable {s : AuthServer} {input : SignupInput} {r : Except Failure AuthResult}

/-- A refusal for a field is right if the field is shared. -/
theorem conflictRight_refused {field : ConflictField} (hr : r = .error field.failure) :
    ConflictRight s input r ↔ Shares s input field := by
  subst hr
  constructor
  · intro h
    obtain ⟨field', hsame, hshares⟩ := h.named _ rfl rfl
    exact ConflictField.failure_inj hsame ▸ hshares
  · intro h
    refine ⟨iff_of_true ⟨_, rfl, rfl⟩ ⟨field, h⟩, ?_⟩
    intro e he _
    exact ⟨field, (Except.error.inj he).symm, h⟩

theorem ConflictRight.of_free (hfree : ∀ e, r = .error e → e.statusCode = 500)
    (hnone : ¬ ∃ field, Shares s input field) : ConflictRight s input r := by
  have hcode : ∀ e, r = .error e → e.statusCode ≠ 409 := by
    intro e he
    rw [hfree e he]
    decide
  refine ⟨iff_of_false ?_ hnone, fun e he h => absurd h (hcode e he)⟩
  intro h
  obtain ⟨e, he, h⟩ := h
  exact hcode e he h

end

/-- **Which conflicts are named rightly**: all but those of an email that is given with capital
letters, where no user has the username too. -/
theorem conflict_iff (L : Library) (clock : Nat) (moves : List (Move AuthCall)) (s : AuthServer)
    (hs : s = ((auth L).run (Config.start (AuthServer.boot clock)) moves).world.state)
    (body : Value) (input : SignupInput) (hparse : (signupSchema L).parse body = .ok input)
    (id : ObjectId) (salt : Text) :
    ConflictRight s input ((auth L).alone (signup L id salt input) s).1 ↔
      ¬ (Shares s input .email ∧ ¬ Shares s input .username ∧ toLowerCase input.email ≠ input.email) := by
  have htrimmed : trim input.email = input.email := (signup_accepted hparse).email
  cases hpick : L.pick (conflicting s input) with
  | none =>
    have hnone : ¬ ∃ field, Shares s input field := by
      intro h
      obtain ⟨user, hmem⟩ := shares_iff.mp h
      rw [L.pick_none hpick] at hmem
      cases hmem
    exact iff_of_true (.of_free (fun e he => signup_free hpick id salt he) hnone) fun h => hnone ⟨_, h.1⟩
  | some existing =>
    obtain ⟨hmem, hshared⟩ := mem_conflicting.mp (L.pick_mem hpick)
    have hrefused := signup_conflict hpick id salt
    by_cases hexact : existing.email = input.email
    · rw [if_pos hexact] at hrefused
      have hlowered : toLowerCase input.email = input.email := by
        rw [← hexact]
        exact (run_recalled L clock moves).lowerCase (hs ▸ hmem)
      refine (conflictRight_refused hrefused).trans
        (iff_of_true ⟨existing, hmem, ?_⟩ fun h => h.2.2 hlowered)
      rw [htrimmed, hlowered, hexact]
    · rw [if_neg hexact] at hrefused
      refine (conflictRight_refused hrefused).trans ?_
      by_cases husername : Shares s input .username
      · exact iff_of_true husername fun h => h.2.1 husername
      · have hemail : existing.email = toLowerCase (trim input.email) :=
          hshared.resolve_right fun h => husername ⟨existing, hmem, h⟩
        refine iff_of_false husername fun h => h ⟨⟨existing, hmem, hemail⟩, husername, ?_⟩
        rw [← htrimmed, ← hemail, htrimmed]
        exact hexact

/-! Ann has signed up, and somebody else gives her email. -/

def annSigned : List (Move AuthCall) :=
  [.arrive (.signup false signupBody (.ending 1) []), .answer 0, .resume 0, .answer 0, .resume 0,
    .answer 0, .resume 0]

def annServer : AuthServer := ((auth plainLibrary).run (Config.start (.boot 0)) annSigned).world.state

def annaBody (email : String) : Value :=
  .object [("username", .string "anna".toList), ("email", .string email.toList),
    ("password", .string (longPassword 6))]

def annaInput (email : String) : SignupInput := ⟨"anna".toList, email.toList, longPassword 6⟩

/-- As she has given it herself. -/
theorem conflict_iff_same : ConflictRight annServer (annaInput "ann@chat.io")
    ((auth plainLibrary).alone (signup plainLibrary (.ending 2) [] (annaInput "ann@chat.io")) annServer).1 :=
  (conflict_iff plainLibrary 0 annSigned annServer rfl (annaBody "ann@chat.io") (annaInput "ann@chat.io") rfl
    (.ending 2) []).mpr fun h => h.2.2 rfl

/-- With a capital: it is the username that is said to be taken. -/
theorem capital_misnamed : (signupSchema plainLibrary).parse (annaBody "Ann@chat.io") =
      .ok (annaInput "Ann@chat.io") ∧
    ¬ ConflictRight annServer (annaInput "Ann@chat.io")
      ((auth plainLibrary).alone (signup plainLibrary (.ending 2) [] (annaInput "Ann@chat.io")) annServer).1 := by
  refine ⟨rfl, fun h => ?_⟩
  obtain ⟨user, hmem, hsame⟩ :=
    (@conflictRight_refused annServer (annaInput "Ann@chat.io") _ .username rfl).mp h
  have hdocs : annServer.accounts.docs = [ann] := rfl
  rw [hdocs, List.mem_singleton] at hmem
  subst hmem
  exact absurd hsame (by decide)

end RealtimeChat
