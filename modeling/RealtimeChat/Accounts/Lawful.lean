import RealtimeChat.Async.Deeds
import RealtimeChat.Async.Discipline
import RealtimeChat.Handlers.Auth

/-! What a signup and a login do, and in which order, and what they leave in the
database.

An account in the database has been created by a signup, which has asked bcrypt to
hash its own password (`Recalled`). -/
namespace RealtimeChat
open Data (Text trim toLowerCase)
open Zod (Value Schema)
open Async Async.System Async.Program

abbrev AuthDeeds := List (Deed authInterface Failure)

abbrev AuthConfig := Config authInterface AuthServer Failure AuthCall AuthResult

/-! ### One task -/

namespace SigningUp
variable (L : Library) (body : Value) (id : ObjectId) (salt : Text)

def law : Law authInterface Failure
  | before, .answered (.userFindConflict email username) _ =>
    ∃ input, (signupSchema L).parse body = .ok input ∧ email = input.email ∧
      username = input.username ∧ before = []
  | before, .answered (.bcryptHash password salt') _ =>
    ∃ input, (signupSchema L).parse body = .ok input ∧ password = input.password ∧ salt' = salt ∧
      before = [.answered (.userFindConflict input.email input.username) (.ok none)]
  | before, .answered (.userCreate id' username email passwordHash now) _ =>
    ∃ input, (signupSchema L).parse body = .ok input ∧ id' = id ∧ username = input.username ∧
      email = input.email ∧ before =
        [.acted .now now, .answered (.bcryptHash input.password salt) (.ok passwordHash),
          .answered (.userFindConflict input.email input.username) (.ok none)]
  | _, .acted .now _ => True
  | _, _ => False

end SigningUp

namespace LoggingIn
variable (L : Library) (body : Value)

def law : Law authInterface Failure
  | before, .answered (.userFindByEmail email) _ =>
    ∃ input, (loginSchema L).parse body = .ok input ∧ email = input.email ∧ before = []
  | before, .answered (.bcryptCompare candidate hash) _ =>
    ∃ input user, (loginSchema L).parse body = .ok input ∧ candidate = input.password ∧
      hash = user.passwordHash ∧
      before = [.answered (.userFindByEmail input.email) (.ok (some user))]
  | _, .acted .now _ => True
  | _, _ => False

/-- A login ends in success exactly if it has found the user and the password matches; the
token is signed right then. -/
def ending (before : AuthDeeds) (r : Except Failure AuthResult) : Prop :=
  ∀ email found, .answered (.userFindByEmail email) (.ok found) ∈ before →
    match found with
    | none => ∃ e, r = .error e
    | some user => ∃ input isMatch, (loginSchema L).parse body = .ok input ∧
        .answered (.bcryptCompare input.password user.passwordHash) isMatch ∈ before ∧
        (isMatch = .ok true → ∃ now, .acted .now now ∈ before ∧
          r = .ok ⟨user, L.sign user.toPayload now⟩) ∧
        (isMatch ≠ .ok true → ∃ e, r = .error e)

end LoggingIn

/-- A query has been answered with the error. -/
def FailedWith (before : AuthDeeds) (e : Failure) : Prop := ∃ q, .answered q (.error e) ∈ before

def Untroubled (before : AuthDeeds) : Prop := ∀ e, ¬ FailedWith before e

section
variable {before : AuthDeeds}

theorem Untroubled.nil : Untroubled [] := by
  intro e h
  obtain ⟨q, h⟩ := h
  cases h

theorem Untroubled.acted (h : Untroubled before) (a : AuthAction) (r : a.Reply) :
    Untroubled (.acted a r :: before) := by
  intro e he
  obtain ⟨q, he⟩ := he
  rcases List.mem_cons.mp he with heq | he
  · cases heq
  · exact h e ⟨q, he⟩

theorem Untroubled.answered (h : Untroubled before) (q : AuthQuery) (v : q.Answer) :
    Untroubled (.answered q (.ok v) :: before) := by
  intro e he
  obtain ⟨q', he⟩ := he
  rcases List.mem_cons.mp he with heq | he
  · injection heq with hq hanswer
    subst hq
    cases eq_of_heq hanswer
  · exact h e ⟨q', he⟩

theorem Untroubled.failed (h : Untroubled before) {q : AuthQuery} {e e' : Failure}
    (he : FailedWith (.answered q (.error e) :: before) e') : e' = e := by
  obtain ⟨q', he⟩ := he
  rcases List.mem_cons.mp he with heq | he
  · injection heq with hq hanswer
    subst hq
    exact Except.error.inj (eq_of_heq hanswer)
  · exact absurd ⟨q', he⟩ (h e')

end

/-- A signup ends with the user it has created, with 409, or with the error of a query. -/
structure SigningUp.Outcome (before : AuthDeeds) (r : Except Failure AuthResult) : Prop where
  fails : ∀ e, FailedWith before e → r = .error e
  creates : ∀ result, r = .ok result → ∃ id username email passwordHash now,
    .answered (.userCreate id username email passwordHash now) (.ok result.user) ∈ before
  refuses : ∀ e, r = .error e → (∃ message, e = .app message 409) ∨ FailedWith before e

/-- A query that fails ends the signup. -/
theorem SigningUp.Outcome.of_failed {before : AuthDeeds} (h : Untroubled before) (q : AuthQuery)
    (e : Failure) : SigningUp.Outcome (.answered q (.error e) :: before) (.error e) where
  fails e' he' := congrArg _ (h.failed he').symm
  creates := by
    intro result hr
    cases hr
  refuses := by
    intro e' hr
    cases hr
    exact .inr ⟨q, .head _⟩

def AuthCall.law (L : Library) : AuthCall → Law authInterface Failure
  | .signup _ body id salt => SigningUp.law L body id salt
  | .login _ body => LoggingIn.law L body

def AuthCall.ending (L : Library) : AuthCall → AuthDeeds → Except Failure AuthResult → Prop
  | .login _ body => LoggingIn.ending L body
  | _ => fun _ _ => True

section
variable (L : Library)

theorem signup_obeys {body : Value} {id : ObjectId} {salt : Text} {input : SignupInput}
    (hparse : (signupSchema L).parse body = .ok input) :
    (RealtimeChat.signup L id salt input).Obeys (SigningUp.law L body id salt) SigningUp.Outcome [] := by
  unfold RealtimeChat.signup
  refine obeys_bind.mpr (obeys_query.mpr fun r => ⟨⟨input, hparse, rfl, rfl, rfl⟩, ?_⟩)
  rcases r with e | _ | existing
  · exact .of_failed .nil _ e
  · have hfound := Untroubled.nil.answered (.userFindConflict input.email input.username) none
    refine obeys_bind.mpr (obeys_query.mpr fun r => ⟨⟨input, hparse, rfl, rfl, rfl⟩, ?_⟩)
    rcases r with e | passwordHash
    · exact .of_failed hfound _ e
    · refine obeys_bind.mpr fun now => ⟨trivial, ?_⟩
      have hread := (hfound.answered (.bcryptHash input.password salt) passwordHash).acted .now now
      refine obeys_bind.mpr (obeys_query.mpr fun r => ⟨⟨input, hparse, rfl, rfl, rfl, rfl⟩, ?_⟩)
      rcases r with e | user
      · exact .of_failed hread _ e
      · intro issued
        have hcreated := hread.answered
          (.userCreate id input.username input.email passwordHash now) user
        refine ⟨trivial, fun e he => absurd he (hcreated.acted .now issued e), ?_, ?_⟩
        · intro result hr
          cases hr
          exact ⟨_, _, _, _, _, .tail _ (.head _)⟩
        · intro e hr
          cases hr
  · have hfound := Untroubled.nil.answered (.userFindConflict input.email input.username)
      (some existing)
    refine ⟨fun e he => absurd he (hfound e), ?_, ?_⟩
    · intro result hr
      cases hr
    · intro e hr
      exact .inl ⟨_, (Except.error.inj hr).symm⟩

theorem login_obeys {body : Value} {input : LoginInput}
    (hparse : (loginSchema L).parse body = .ok input) :
    (RealtimeChat.login L input).Obeys (LoggingIn.law L body) (LoggingIn.ending L body) [] := by
  unfold RealtimeChat.login
  refine obeys_bind.mpr (obeys_query.mpr fun r => ⟨⟨input, hparse, rfl, rfl⟩, ?_⟩)
  rcases r with e | _ | user
  · intro email found hfound
    cases List.mem_singleton.mp hfound
  · intro email found hfound
    cases List.mem_singleton.mp hfound
    exact ⟨_, rfl⟩
  · refine obeys_bind.mpr (obeys_query.mpr fun isMatch => ⟨⟨input, user, hparse, rfl, rfl, rfl⟩, ?_⟩)
    have hfailed : ∀ {r : Except Failure AuthResult}, isMatch ≠ .ok true → (∃ e, r = .error e) →
        LoggingIn.ending L body [.answered (.bcryptCompare input.password user.passwordHash) isMatch,
          .answered (.userFindByEmail input.email) (.ok (some user))] r := by
      intro r hnot he email found hfound
      obtain ⟨-, rfl⟩ : email = input.email ∧ found = some user := by simpa using hfound
      exact ⟨input, isMatch, hparse, .head _, fun h => absurd h hnot, fun _ => he⟩
    rcases isMatch with e | _ | _
    · exact hfailed nofun ⟨e, rfl⟩
    · exact hfailed nofun ⟨_, rfl⟩
    · intro now
      refine ⟨trivial, fun email found hfound => ?_⟩
      obtain ⟨-, rfl⟩ : email = input.email ∧ found = some user := by simpa using hfound
      exact ⟨input, .ok true, hparse, .tail _ (.head _), fun _ => ⟨now, .head _, rfl⟩,
        fun h => absurd rfl h⟩

/-- A request that is let through, or ends with 429. -/
theorem authRateLimiter_obeys {α : Type} {law : Law authInterface Failure}
    {E : AuthDeeds → Except Failure α → Prop} {before : AuthDeeds} {limited : Bool} {p : Auth α}
    (hlimited : limited = true → ∀ message, E before (.error (.app message 429)))
    (hp : limited = false → p.Obeys law E before) : (authRateLimiter limited p).Obeys law E before := by
  cases limited with
  | true => exact hlimited rfl _
  | false => exact hp rfl

/-- **What each request does, and in which order**, whatever it is answered. -/
theorem auth_obeys (call : AuthCall) :
    (AuthCall.body L call).Obeys (call.law L) (call.ending L) [] := by
  cases call with
  | signup limited body id salt =>
    refine authRateLimiter_obeys (fun _ _ => trivial) fun _ => ?_
    show (validated (signupSchema L) body _).Obeys (SigningUp.law L body id salt) _ _
    unfold validated
    split
    · trivial
    · exact (signup_obeys L ‹_›).mono fun _ _ _ => trivial
  | login limited body =>
    refine authRateLimiter_obeys (fun _ _ email found hfound => ?_) fun _ => ?_
    · cases hfound
    · show (validated (loginSchema L) body _).Obeys (LoggingIn.law L body) (LoggingIn.ending L body) _
      unfold validated
      split
      · intro email found hfound
        cases hfound
      · exact login_obeys L ‹_›

end

/-- Every request has done what its law allows, and will go on so. -/
abbrev AuthObedient (L : Library) (c : AuthConfig) : Prop :=
  Obedient (AuthCall.law L) (AuthCall.ending L) c

theorem auth_run (L : Library) (s : AuthServer) (moves : List (Move AuthCall)) :
    AuthObedient L ((auth L).run (Config.start s) moves) :=
  (Obedient.start s).run (auth L) (auth_obeys L) moves

/-! ### The database -/

/-- The account has been created by a signup with this password. -/
def SignedUp (L : Library) (password : Text) (user : Account) (log : AuthLog) : Prop :=
  ∃ pid limited body id salt input passwordHash now,
    .arrived pid (.signup limited body id salt) ∈ log ∧ (signupSchema L).parse body = .ok input ∧
    input.password = password ∧
    .answered pid (.userCreate id input.username input.email passwordHash now) (.ok user) ∈ log

/-- The accounts are those created, each by one request. -/
structure Recalled (w : World authInterface AuthServer Failure AuthCall) : Prop where
  stored : ∀ user ∈ w.state.accounts.docs, ∃ pid id username email passwordHash now,
    .answered pid (.userCreate id username email passwordHash now) (.ok user) ∈ w.log
  created : ∀ {pid id username email passwordHash now} {user : Account},
    .answered pid (.userCreate id username email passwordHash now) (.ok user) ∈ w.log →
    user ∈ w.state.accounts.docs ∧ user.email = toLowerCase (trim email) ∧
      user.passwordHash = passwordHash
  creator : ∀ {pid id username email passwordHash now pid' id' username' email' passwordHash' now'}
      {user : Account},
    .answered pid (.userCreate id username email passwordHash now) (.ok user) ∈ w.log →
    .answered pid' (.userCreate id' username' email' passwordHash' now') (.ok user) ∈ w.log → pid = pid'

section
variable {L : Library} {w w' : World authInterface AuthServer Failure AuthCall}

/-- An entry that is not the creation of an account. -/
theorem Recalled.cons (hi : Recalled w) {e : Event authInterface Failure AuthCall}
    (hlog : w'.log = e :: w.log) (hdocs : w'.state.accounts = w.state.accounts)
    (he : ∀ pid id username email passwordHash now user,
      e ≠ .answered pid (.userCreate id username email passwordHash now) (.ok user)) :
    Recalled w' := by
  have hold : ∀ {pid id username email passwordHash now} {user : Account},
      .answered pid (.userCreate id username email passwordHash now) (.ok user) ∈ w'.log →
      .answered pid (.userCreate id username email passwordHash now) (.ok user) ∈ w.log := by
    intro pid id username email passwordHash now user h
    rw [hlog] at h
    exact (List.mem_cons.mp h).resolve_left fun heq => he _ _ _ _ _ _ _ heq.symm
  refine ⟨fun user hmem => ?_, fun h => ?_, fun h h' => hi.creator (hold h) (hold h')⟩
  · rw [hdocs] at hmem
    obtain ⟨pid, id, username, email, passwordHash, now, h⟩ := hi.stored user hmem
    refine ⟨pid, id, username, email, passwordHash, now, ?_⟩
    rw [hlog]
    exact .tail _ h
  · rw [hdocs]
    exact hi.created (hold h)

/-- A user that is created is the one given, added to the accounts. -/
theorem AuthServer.createUser_ok {user created : Account} {s : AuthServer}
    (h : (s.createUser user).1 = .ok created) :
    created = user ∧ s.accounts.insert user = some (s.createUser user).2.accounts := by
  unfold AuthServer.createUser at h ⊢
  by_cases hvalid : AuthServer.validates user
  · rw [if_pos hvalid] at h ⊢
    cases hinsert : s.accounts.insert user with
    | none => simp [hinsert] at h
    | some accounts =>
      rw [hinsert] at h
      exact ⟨(Except.ok.inj h).symm, rfl⟩
  · rw [if_neg hvalid] at h
    cases h

theorem AuthServer.createUser_failed {user : Account} {s : AuthServer} {e : Failure}
    (h : (s.createUser user).1 = .error e) : (s.createUser user).2 = s := by
  unfold AuthServer.createUser at h ⊢
  by_cases hvalid : AuthServer.validates user
  · rw [if_pos hvalid] at h ⊢
    cases hinsert : s.accounts.insert user with
    | none => rfl
    | some accounts => simp [hinsert] at h
  · rw [if_neg hvalid]

theorem Recalled.create (hi : Recalled w) {pid : Nat} {id : ObjectId}
    {username email passwordHash : Text} {now : Nat} {user : Account}
    (h : (AuthServer.answer L (.userCreate id username email passwordHash now) w.state).1 = .ok user) :
    Recalled ((auth L).respond pid (.userCreate id username email passwordHash now) w) := by
  have hlog : ((auth L).respond pid (.userCreate id username email passwordHash now) w).log =
      .answered pid (.userCreate id username email passwordHash now) (.ok user) :: w.log :=
    congrArg (fun r => Event.answered pid _ r :: w.log) h
  obtain ⟨hcreated, hinsert⟩ := AuthServer.createUser_ok h
  obtain ⟨hnew, hfresh⟩ := Accounts.insert_eq_some hinsert
  rw [← hcreated] at hfresh
  have haccounts : ((auth L).respond pid (.userCreate id username email passwordHash now)
      w).state.accounts.docs = w.state.accounts.docs ++ [user] := hnew.trans (by rw [← hcreated])
  refine ⟨fun other hmem => ?_, fun hmem => ?_, fun hmem hmem' => ?_⟩
  · rw [haccounts, List.mem_append, List.mem_singleton] at hmem
    rw [hlog]
    rcases hmem with hmem | rfl
    · obtain ⟨pid', id', username', email', passwordHash', now', hold⟩ := hi.stored other hmem
      exact ⟨pid', id', username', email', passwordHash', now', .tail _ hold⟩
    · exact ⟨pid, id, username, email, passwordHash, now, .head _⟩
  · rw [haccounts]
    rw [hlog] at hmem
    rcases List.mem_cons.mp hmem with heq | hmem
    · cases heq
      refine ⟨List.mem_append_right _ (List.mem_singleton_self user), ?_, ?_⟩ <;> rw [hcreated]
    · obtain ⟨hin, hsame⟩ := hi.created hmem
      exact ⟨List.mem_append_left _ hin, hsame⟩
  · rw [hlog] at hmem hmem'
    rcases List.mem_cons.mp hmem with heq | hmem <;>
      rcases List.mem_cons.mp hmem' with heq' | hmem'
    · cases heq
      cases heq'
      rfl
    · cases heq
      exact absurd rfl (hfresh user (hi.created hmem').1).1
    · cases heq'
      exact absurd rfl (hfresh user (hi.created hmem).1).1
    · exact hi.creator hmem hmem'

end

/-- **The accounts of every run** from a server without accounts. -/
theorem run_recalled (L : Library) (clock : Nat) (moves : List (Move AuthCall)) :
    Recalled ((auth L).run (Config.start (AuthServer.boot clock)) moves).world := by
  have hpreserves : (auth L).Preserves (AuthCall.law L) Recalled := by
    refine ⟨?_, ?_, ?_, ?_, ?_⟩
    · intro pid call a w hi _ _
      cases a
      exact hi.cons rfl rfl (by simp)
    · intro pid call q w hi _ _
      cases q with
      | userCreate id username email passwordHash now =>
        rcases h : (AuthServer.answer L (.userCreate id username email passwordHash now) w.state).1 with
          e | user
        · refine hi.cons rfl ?_ ?_
          · exact congrArg AuthServer.accounts (AuthServer.createUser_failed h)
          · intro pid' id' username' email' passwordHash' now' user heq
            injection heq with _ hq hanswer
            injection hq with h₁ h₂ h₃ h₄ h₅
            subst h₁ h₂ h₃ h₄ h₅
            rw [show (auth L).answer = AuthServer.answer L from rfl, h] at hanswer
            cases hanswer
        · exact hi.create h
      | _ => exact hi.cons rfl rfl (by simp)
    · intro pid call q w hi _ _
      refine hi.cons rfl rfl ?_
      intro pid' id username email passwordHash now user heq
      injection heq with _ hq hanswer
      subst hq
      cases eq_of_heq hanswer
    · intro pid call s w hi _ ha
      cases ha
      exact hi.cons rfl rfl (by simp)
    · exact fun hi => ⟨hi.stored, hi.created, hi.creator⟩
  exact hpreserves.run (auth_obeys L) (Obedient.start _) ⟨by simp [AuthServer.boot, Accounts.empty,
    Config.start], by simp [Config.start], by simp [Config.start]⟩ moves

end RealtimeChat
