import RealtimeChat.Accounts.Login
import RealtimeChat.Async.Fate
import RealtimeChat.Handlers.Gate

/-! From a password to a session.

A token is handed out with the response to a signup or to a login, and names the user of
that response. It lets in whoever shows it, over REST or with a handshake, as that user,
until it expires, and nothing else lets anybody in (`entered_iff`). So whoever gets in
has been preceded by a request that knew the password of the user (`entered_known`), as
far as bcrypt reads it. -/
namespace RealtimeChat
open Data (Text trim toLowerCase)
open Zod (Value)
open Async Async.System Async.Program

/-! ### Handing out -/

/-- The request has created the user, or has found the user and the password right. -/
def AuthCall.met (L : Library) (before : AuthDeeds) (user : Account) : AuthCall → Prop
  | .signup _ body id _ => ∃ input passwordHash now, (signupSchema L).parse body = .ok input ∧
    .answered (.userCreate id input.username input.email passwordHash now) (.ok user) ∈ before
  | .login _ body => ∃ input, (loginSchema L).parse body = .ok input ∧
    .answered (.userFindByEmail input.email) (.ok (some user)) ∈ before ∧
    .answered (.bcryptCompare input.password user.passwordHash) (.ok true) ∈ before

/-- What has happened before a response that hands out a token. -/
structure Issues (L : Library) (call : AuthCall) (before : AuthDeeds) (result : AuthResult) : Prop where
  signed : ∃ now, .acted .now now ∈ before ∧ result.token = L.sign result.user.toPayload now
  met : call.met L before result.user

def AuthCall.issuing (L : Library) (call : AuthCall) (before : AuthDeeds)
    (r : Except Failure AuthResult) : Prop :=
  ∀ result, r = .ok result → Issues L call before result

/-- No law. -/
def unruled : Law authInterface Failure := fun _ _ => True

section
variable (L : Library)

theorem issuing_error {call : AuthCall} {before : AuthDeeds} (e : Failure) :
    call.issuing L before (.error e) := by
  intro result hr
  cases hr

theorem signup_issues {body : Value} {input : SignupInput} (limited : Bool) (id : ObjectId) (salt : Text)
    (hparse : (signupSchema L).parse body = .ok input) :
    (RealtimeChat.signup L id salt input).Obeys unruled
      (AuthCall.issuing L (.signup limited body id salt)) [] := by
  unfold RealtimeChat.signup
  refine obeys_bind.mpr (obeys_query.mpr fun r => ⟨trivial, ?_⟩)
  rcases r with e | _ | existing
  · exact issuing_error L e
  · refine obeys_bind.mpr (obeys_query.mpr fun r => ⟨trivial, ?_⟩)
    rcases r with e | passwordHash
    · exact issuing_error L e
    · refine obeys_bind.mpr fun now => ⟨trivial, ?_⟩
      refine obeys_bind.mpr (obeys_query.mpr fun r => ⟨trivial, ?_⟩)
      rcases r with e | user
      · exact issuing_error L e
      · intro issued
        refine ⟨trivial, fun result hr => ?_⟩
        cases hr
        exact ⟨⟨issued, .head _, rfl⟩, input, passwordHash, now, hparse, .tail _ (.head _)⟩
  · exact issuing_error L _

theorem login_issues {body : Value} {input : LoginInput} (limited : Bool)
    (hparse : (loginSchema L).parse body = .ok input) :
    (RealtimeChat.login L input).Obeys unruled (AuthCall.issuing L (.login limited body)) [] := by
  unfold RealtimeChat.login
  refine obeys_bind.mpr (obeys_query.mpr fun r => ⟨trivial, ?_⟩)
  rcases r with e | _ | user
  · exact issuing_error L e
  · exact issuing_error L _
  · refine obeys_bind.mpr (obeys_query.mpr fun isMatch => ⟨trivial, ?_⟩)
    rcases isMatch with e | _ | _
    · exact issuing_error L e
    · exact issuing_error L _
    · intro issued
      refine ⟨trivial, fun result hr => ?_⟩
      cases hr
      exact ⟨⟨issued, .head _, rfl⟩, input, hparse, .tail _ (.tail _ (.head _)), .tail _ (.head _)⟩

theorem body_issues (call : AuthCall) :
    (AuthCall.body L call).Obeys unruled (call.issuing L) [] := by
  cases call with
  | signup limited body id salt =>
    refine authRateLimiter_obeys (fun _ message => issuing_error L (.app message 429)) fun _ => ?_
    unfold validated
    split
    · exact issuing_error L _
    · exact signup_issues L limited id salt ‹_›
  | login limited body =>
    refine authRateLimiter_obeys (fun _ message => issuing_error L (.app message 429)) fun _ => ?_
    unfold validated
    split
    · exact issuing_error L _
    · exact login_issues L limited ‹_›

/-- The time that a request has read lies in the past. -/
def Timely (w : World authInterface AuthServer Failure AuthCall) : Prop :=
  ∀ pid now, .acted pid .now now ∈ w.log → now ≤ w.state.clock

theorem run_timely (clock : Nat) (moves : List (Move AuthCall)) :
    Timely ((auth L).run (Config.start (AuthServer.boot clock)) moves).world := by
  have hanswer : ∀ {q : AuthQuery} {s : AuthServer}, (AuthServer.answer L q s).2.clock = s.clock := by
    intro q s
    cases q with
    | userCreate id username email passwordHash now =>
      simp only [AuthServer.answer, AuthServer.createUser]
      split
      · split <;> rfl
      · rfl
    | _ => rfl
  have hpreserves : (auth L).Preserves (AuthCall.law L) Timely := by
    refine ⟨?_, ?_, ?_, ?_, ?_⟩
    · intro pid call a w hi _ _ pid' now hmem
      cases a
      rcases List.mem_cons.mp hmem with heq | hmem
      · cases heq
        exact Nat.le_refl _
      · exact hi pid' now hmem
    · intro pid call q w hi _ _ pid' now hmem
      rcases List.mem_cons.mp hmem with heq | hmem
      · cases heq
      · exact (hi pid' now hmem).trans (Nat.le_of_eq hanswer.symm)
    · intro pid call q w hi _ _ pid' now hmem
      exact hi pid' now ((List.mem_cons.mp hmem).resolve_left fun heq => by cases heq)
    · intro pid call s w hi _ ha pid' now hmem
      cases ha
      exact hi pid' now ((List.mem_cons.mp hmem).resolve_left fun heq => by cases heq)
    · exact fun hi pid' now hmem => (hi pid' now hmem).trans (Nat.le_add_right _ _)
  exact hpreserves.run (auth_obeys L) (Obedient.start _) (fun _ _ h => by cases h) moves

end

/-- What the request has given is the user's password, to bcrypt. -/
def AuthCall.Knows (L : Library) (user : Account) (password : Text) : AuthCall → Prop
  | .signup _ body _ _ => ∃ input, (signupSchema L).parse body = .ok input ∧ input.password = password
  | .login _ body => ∃ input, (loginSchema L).parse body = .ok input ∧
    user.email = toLowerCase (trim input.email) ∧ bytesRead input.password = bytesRead password

section
variable {L : Library} {clock : Nat} {moves : List (Move AuthCall)} {pid : Nat} {call : AuthCall}
  {result : AuthResult}

theorem run_issues (htask : ((auth L).run (Config.start (AuthServer.boot clock)) moves).tasks[pid]? =
    some ⟨call, .done (.ok result)⟩) : Issues L call
      (deeds pid ((auth L).run (Config.start (AuthServer.boot clock)) moves).world.log) result :=
  ((Obedient.start (AuthServer.boot clock)).run (auth L) (body_issues L) moves).obeys pid _ htask result rfl

/-- The token of a response has been signed for its user, not after the present. -/
theorem issued_signed (htask : ((auth L).run (Config.start (AuthServer.boot clock)) moves).tasks[pid]? =
    some ⟨call, .done (.ok result)⟩) : ∃ issued,
      .acted pid .now issued ∈ ((auth L).run (Config.start (AuthServer.boot clock)) moves).world.log ∧
      issued ≤ ((auth L).run (Config.start (AuthServer.boot clock)) moves).world.state.clock ∧
      result.token = L.sign result.user.toPayload issued := by
  obtain ⟨issued, hissued, htoken⟩ := (run_issues htask).signed
  have hmem := mem_deeds_acted.mp hissued
  exact ⟨issued, hmem, run_timely L clock moves pid issued hmem, htoken⟩

/-- A request that is handed a token has known the password of the token's user. -/
theorem issued_known (htask : ((auth L).run (Config.start (AuthServer.boot clock)) moves).tasks[pid]? =
    some ⟨call, .done (.ok result)⟩) : ∃ password,
      SignedUp L password result.user
        ((auth L).run (Config.start (AuthServer.boot clock)) moves).world.log ∧
      call.Knows L result.user password := by
  have hmet := (run_issues htask).met
  cases call with
  | signup limited body id salt =>
    obtain ⟨input, passwordHash, now, hparse, hcreated⟩ := hmet
    exact ⟨input.password, ⟨pid, limited, body, id, salt, input, passwordHash, now,
      (auth_run L (AuthServer.boot clock) moves).arrived pid _ htask, hparse, rfl,
      mem_deeds_answered.mp hcreated⟩, input, hparse, rfl⟩
  | login limited body =>
    obtain ⟨input, hparse, hfound, hmatch⟩ := hmet
    obtain ⟨later, earlier, hlog⟩ := List.append_of_mem (mem_deeds_answered.mp hfound)
    obtain ⟨password, salt, hhash, ⟨hemail, hsigned⟩, -⟩ := lookup_some clock hlog
    have hread := compare_answer clock moves (mem_deeds_answered.mp hmatch)
    rw [hhash] at hread
    refine ⟨password, ?_, input, hparse, hemail, (L.compare_hash _ _ _).mp (Except.ok.inj hread).symm⟩
    obtain ⟨pid', limited', body', id, salt', input', passwordHash, now, harrived, hrest⟩ := hsigned
    have hmem : ∀ {e}, e ∈ earlier →
        e ∈ ((auth L).run (Config.start (AuthServer.boot clock)) moves).world.log := by
      intro e he
      rw [hlog]
      exact List.mem_append_right _ (.tail _ he)
    exact ⟨pid', limited', body', id, salt', input', passwordHash, now, hmem harrived, hrest.1, hrest.2.1,
      hmem hrest.2.2⟩

theorem issued_stored (htask : ((auth L).run (Config.start (AuthServer.boot clock)) moves).tasks[pid]? =
    some ⟨call, .done (.ok result)⟩) : result.user ∈
      ((auth L).run (Config.start (AuthServer.boot clock)) moves).world.state.accounts.docs := by
  obtain ⟨password, hsigned, -⟩ := issued_known htask
  exact SignedUp.stored clock moves hsigned

/-- An account stays. -/
theorem account_stays {user : Account} (more : List (Move AuthCall)) (h : user ∈
    ((auth L).run (Config.start (AuthServer.boot clock)) moves).world.state.accounts.docs) : user ∈
      ((auth L).run (Config.start (AuthServer.boot clock)) (moves ++ more)).world.state.accounts.docs := by
  obtain ⟨pid, id, username, email, passwordHash, now, hcreated⟩ :=
    (run_recalled L clock moves).stored user h
  obtain ⟨new, hlog⟩ := (auth L).run_log ((auth L).run (Config.start (AuthServer.boot clock)) moves) more
  have hcreated' : .answered pid (.userCreate id username email passwordHash now) (.ok user) ∈
      ((auth L).run (Config.start (AuthServer.boot clock)) (moves ++ more)).world.log := by
    rw [run_append, hlog]
    exact List.mem_append_right new hcreated
  exact ((run_recalled L clock (moves ++ more)).created hcreated').1

end

/-! ### Showing -/

/-- The token that a request shows. -/
def GateCall.token : GateCall → Value
  | .me authorization => handshakeToken .undefined authorization
  | .handshake auth authorization => handshakeToken auth authorization

/-- What `jsonwebtoken` promises of tokens: one that it has signed is read as what was signed, and
only until it expires; it is a word. -/
structure Tokens (L : Library) : Prop where
  verifies : ∀ {payload issued now payload'}, L.verify (L.sign payload issued) now = some payload' →
    payload' = payload ∧ now / 1000 < issued / 1000 + L.expiresIn
  nonempty : ∀ payload issued, L.sign payload issued ≠ []
  word : ∀ payload issued, ' ' ∉ L.sign payload issued

/-- Signups, logins and requests with tokens, from a server without accounts. -/
abbrev sessionRun (L : Library) (clock : Nat) (moves : List (Move SessionCall)) : SessionConfig :=
  (sessions L).run (Config.start (AuthServer.boot clock)) moves

/-- A response has handed the token to the user. -/
def Issued (c : SessionConfig) (user : Account) (token : Text) : Prop :=
  ∃ (pid : Nat) (call : AuthCall), c.tasks[pid]? = some ⟨.inl call, .done (.ok (.inl ⟨user, token⟩))⟩

/-- A token that is good is one that has been handed out before it is shown. -/
def Unforged (L : Library) (clock : Nat) (moves : List (Move SessionCall)) : Prop :=
  ∀ before call after token now, moves = before ++ .arrive (.inr call) :: after →
    call.token = .string token → L.verify token now ≠ none →
    ∃ user, Issued (sessionRun L clock before) user token

/-- The request shows a token that has been handed to the user and is good yet. -/
def Admits (L : Library) (c : SessionConfig) (call : GateCall) (user : Account) : Prop :=
  ∃ token issued, call.token = .string token ∧ Issued c user token ∧
    token = L.sign user.toPayload issued ∧ issued ≤ c.world.state.clock ∧
    c.world.state.clock / 1000 < issued / 1000 + L.expiresIn

/-- As whom a response lets in. -/
def entered : AuthResult ⊕ GateResult → Option JwtPayload
  | .inr (.profile user) => some ⟨user.id.toString, user.username, user.email⟩
  | .inr (.handshake (.ok payload)) => some payload
  | _ => none

section
variable {L : Library}

/-- The response to `GET /api/auth/me`, once the user has been looked up. -/
def profileOf : Except Failure (Option Account) → Except Failure (AuthResult ⊕ GateResult)
  | .ok (some user) => .ok (.inr (.profile user.toUser))
  | .ok none => .error (.app "User not found" 404)
  | .error e => .error e

/-- What `verifyToken` makes of a value at a time. -/
def readToken (L : Library) (now : Nat) : Value → Option JwtPayload
  | .string token => L.verify token now
  | _ => none

theorem readToken_eq_some {now : Nat} {v : Value} {payload : JwtPayload} :
    readToken L now v = some payload ↔ ∃ token, v = .string token ∧ L.verify token now = some payload := by
  cases v with
  | string token => exact ⟨fun h => ⟨token, rfl, h⟩, fun ⟨_, hv, h⟩ => by cases hv; exact h⟩
  | _ => exact ⟨fun h => (by cases h), fun ⟨_, hv, _⟩ => by cases hv⟩

theorem verifyToken_eq (v : Value) :
    verifyToken L v = .act .now fun now => .ret (readToken L now v) := by
  cases v <;> rfl

/-- `GET /api/auth/me` with a token, once it is known whose token it is. -/
def profiled (payload : Option JwtPayload) : Gate GateResult :=
  match payload with
  | some payload => meHandler (some payload)
  | none => .raise (.app "Authentication failed: invalid or expired token" 401)

theorem me_eq {authHeader : Text} (h : startsWithBearer authHeader = true) :
    GateCall.body L (.me (some authHeader)) =
      .act .now fun now => profiled (readToken L now (secondWord authHeader)) := by
  simp only [GateCall.body, authMiddleware, h, verifyToken_eq, Bool.not_true, Bool.false_eq_true, if_false]
  refine congrArg (@Program.act gateInterface _ _ .now) (funext fun now => ?_)
  dsimp only [Program.bind]
  cases readToken L now (secondWord authHeader) <;> rfl

theorem meHandler_eq (payload : JwtPayload) :
    (meHandler (some payload)).right = (.await (.inr (.userFindById payload.userId)) fun answer =>
      .ofExcept (profileOf answer) : Program (authInterface.beside gateInterface) Failure _) := by
  refine congrArg (Program.await _) (funext fun answer => ?_)
  rcases answer with e | _ | user <;> rfl

/-- `GET /api/auth/me` is refused as it arrives, or looks up the user of the token. -/
theorem me_started (authorization : Option Text) (pid : Nat)
    (w : World (authInterface.beside gateInterface) AuthServer Failure SessionCall) :
    (∃ e, ((sessions L).settle pid (GateCall.body L (.me authorization)).right w).1 =
        .done (.error e) ∧ readToken L w.state.clock (GateCall.token (.me authorization)) = none) ∨
      ∃ payload, readToken L w.state.clock (GateCall.token (.me authorization)) = some payload ∧
        ((sessions L).settle pid (GateCall.body L (.me authorization)).right w).1 =
          .blocked (.inr (.userFindById payload.userId)) fun answer => .ofExcept (profileOf answer) := by
  rcases authorization with _ | authHeader
  · exact .inl ⟨_, rfl, rfl⟩
  · by_cases hbearer : startsWithBearer authHeader = true
    · have htoken : GateCall.token (.me (some authHeader)) = secondWord authHeader := if_pos hbearer
      have hstart : (sessions L).settle pid (GateCall.body L (.me (some authHeader))).right w =
          (sessions L).settle pid (profiled (readToken L w.state.clock (secondWord authHeader))).right
            ((sessions L).perform pid (.inr .now) w) := by
        rw [me_eq hbearer]
        rfl
      rw [hstart, htoken]
      cases hread : readToken L w.state.clock (secondWord authHeader) with
      | none => exact .inl ⟨_, rfl, rfl⟩
      | some payload =>
        refine .inr ⟨payload, rfl, ?_⟩
        rw [profiled, meHandler_eq]
        rfl
    · have htoken : GateCall.token (.me (some authHeader)) = .undefined := if_neg hbearer
      simp only [GateCall.body, authMiddleware, hbearer, htoken]
      exact .inl ⟨_, rfl, rfl⟩

/-- What a handshake with a token is answered. -/
def shaken : Option JwtPayload → Except String JwtPayload
  | some payload => .ok payload
  | none => .error "Authentication failed: invalid or expired token"

theorem handshake_eq {auth : Value} {authorization : Option Text}
    (h : truthy (handshakeToken auth authorization) = true) :
    GateCall.body L (.handshake auth authorization) = .act .now fun now =>
      .ret (.handshake (shaken (readToken L now (handshakeToken auth authorization)))) := by
  simp only [GateCall.body, socketAuthMiddleware, h, verifyToken_eq, Bool.not_true, Bool.false_eq_true,
    if_false]
  refine congrArg (@Program.act gateInterface _ _ .now) (funext fun now => ?_)
  dsimp only [Program.bind]
  cases readToken L now (handshakeToken auth authorization) <;> rfl

/-- A handshake is answered as it arrives. -/
theorem handshake_started (auth : Value) (authorization : Option Text) (pid : Nat)
    (w : World (authInterface.beside gateInterface) AuthServer Failure SessionCall) :
    ∃ response, ((sessions L).settle pid (GateCall.body L (.handshake auth authorization)).right w).1 =
        .done (.ok (.inr (.handshake response))) ∧
      ∀ payload, response = .ok payload ↔ truthy (handshakeToken auth authorization) = true ∧
        readToken L w.state.clock (handshakeToken auth authorization) = some payload := by
  by_cases htoken : truthy (handshakeToken auth authorization) = true
  · refine ⟨shaken (readToken L w.state.clock (handshakeToken auth authorization)), ?_, fun payload => ?_⟩
    · rw [handshake_eq htoken]
      rfl
    · cases readToken L w.state.clock (handshakeToken auth authorization) with
      | none => simp [shaken]
      | some payload => simp [shaken, htoken]
  · simp only [GateCall.body, socketAuthMiddleware, htoken]
    refine ⟨_, rfl, fun payload => ⟨fun h => ?_, fun h => ?_⟩⟩
    · cases h
    · cases h.1

end

/-! ### A run of both -/

section
variable {L : Library} {clock : Nat} {moves : List (Move SessionCall)}

theorem auth_idles (L : Library) : ∃ e, (auth L).Idles (.login false .undefined) (.error e) :=
  ⟨_, fun _ => rfl, rfl⟩

/-- **The signups and the logins do not notice the tokens that are shown**: they take the steps
that they would take alone. -/
theorem sessions_aside (L : Library) (clock : Nat) (moves : List (Move SessionCall)) : ∃ e,
    Config.Aside (.login false .undefined) (.error e) (sessionRun L clock moves)
      ((auth L).run (Config.start (AuthServer.boot clock))
        (moves.map (Move.aside (.login false .undefined)))) := by
  obtain ⟨e, hidle⟩ := auth_idles L
  exact ⟨e, run_aside hidle (gate_reads L) (.start _) moves⟩

theorem Issued.signed {user : Account} {token : Text} (h : Issued (sessionRun L clock moves) user token) :
    ∃ issued, issued ≤ (sessionRun L clock moves).world.state.clock ∧
      token = L.sign user.toPayload issued := by
  obtain ⟨pid, call, htask⟩ := h
  obtain ⟨e, haside⟩ := sessions_aside L clock moves
  obtain ⟨issued, -, hle, htoken⟩ := issued_signed (haside.done htask)
  exact ⟨issued, haside.world.state ▸ hle, htoken⟩

theorem Issued.stored {user : Account} {token : Text} (h : Issued (sessionRun L clock moves) user token) :
    user ∈ (sessionRun L clock moves).world.state.accounts.docs := by
  obtain ⟨pid, call, htask⟩ := h
  obtain ⟨e, haside⟩ := sessions_aside L clock moves
  exact haside.world.state ▸ issued_stored (haside.done htask)

theorem session_stays {user : Account} (more : List (Move SessionCall))
    (h : user ∈ (sessionRun L clock moves).world.state.accounts.docs) :
    user ∈ (sessionRun L clock (moves ++ more)).world.state.accounts.docs := by
  obtain ⟨e, haside⟩ := sessions_aside L clock moves
  obtain ⟨e', haside'⟩ := sessions_aside L clock (moves ++ more)
  rw [← haside.world.state] at h
  rw [← haside'.world.state, List.map_append]
  exact account_stays _ h

/-- The document with an id of an account is that account. -/
theorem find_account (accounts : Accounts) {user : Account} (h : user ∈ accounts.docs) :
    accounts.docs.find? (fun other => other.id == user.id) = some user := by
  cases hfind : accounts.docs.find? fun other => other.id == user.id with
  | none => exact absurd (beq_self_eq_true user.id) (by simpa using List.find?_eq_none.mp hfind user h)
  | some other =>
    have hid : (other.id == user.id) = true := by simpa using List.find?_some hfind
    exact congrArg some (List.inj_on_of_nodup_map accounts.ids (List.mem_of_find?_eq_some hfind) h
      (beq_iff_eq.mp hid))

/-- A good token is one that has been handed out to the user whom it names. -/
theorem readToken_iff (htokens : Tokens L) {before after : List (Move SessionCall)} {call : GateCall}
    (hunforged : Unforged L clock (before ++ .arrive (.inr call) :: after)) {payload : JwtPayload} :
    readToken L (sessionRun L clock before).world.state.clock call.token = some payload ↔
      ∃ user, payload = user.toPayload ∧ Admits L (sessionRun L clock before) call user := by
  rw [readToken_eq_some]
  constructor
  · intro h
    obtain ⟨token, htoken, hverify⟩ := h
    have hgood : L.verify token (sessionRun L clock before).world.state.clock ≠ none := by
      rw [hverify]
      exact Option.some_ne_none payload
    obtain ⟨user, hissued⟩ := hunforged before call after token _ rfl htoken hgood
    obtain ⟨issued, hle, hsigned⟩ := hissued.signed
    rw [hsigned] at hverify
    obtain ⟨hpayload, hlasts⟩ := htokens.verifies hverify
    exact ⟨user, hpayload, token, issued, htoken, hissued, hsigned, hle, hlasts⟩
  · intro h
    obtain ⟨user, rfl, token, issued, htoken, -, rfl, hle, hlasts⟩ := h
    exact ⟨_, htoken, L.verify_sign _ _ _ hle hlasts⟩

/-- A request, as it has arrived. -/
theorem gate_arrives (c : SessionConfig) (call : GateCall) :
    ((sessions L).step c (.arrive (.inr call))).tasks[c.tasks.length]? = some ⟨.inr call,
      ((sessions L).settle c.tasks.length (GateCall.body L call).right
        (arrival c.tasks.length (.inr call) c.world.state c.world)).1⟩ :=
  List.getElem?_concat_length

theorem me_iff {before after : List (Move SessionCall)} {authorization : Option Text}
    {r : Except Failure (AuthResult ⊕ GateResult)} {payload : JwtPayload} (htokens : Tokens L)
    (hunforged : Unforged L clock (before ++ .arrive (.inr (.me authorization)) :: after))
    (htask : (sessionRun L clock (before ++ .arrive (.inr (.me authorization)) :: after)).tasks[
      (sessionRun L clock before).tasks.length]? = some ⟨.inr (.me authorization), .done r⟩)
    (hanswered : r ≠ .error .queryFailed) : (∃ v, r = .ok v ∧ entered v = some payload) ↔
      readToken L (sessionRun L clock before).world.state.clock (GateCall.token (.me authorization)) =
        some payload := by
  have harrived := gate_arrives (L := L) (sessionRun L clock before) (.me authorization)
  rw [sessionRun, run_append] at htask
  rcases me_started (L := L) authorization (sessionRun L clock before).tasks.length (arrival
    (sessionRun L clock before).tasks.length (.inr (.me authorization))
    (sessionRun L clock before).world.state (sessionRun L clock before).world) with
    ⟨e, hstarted, hread⟩ | ⟨payload', hread, hstarted⟩
  · rw [hstarted] at harrived
    cases htask.symm.trans ((sessions L).run_done harrived after)
    refine iff_of_false ?_ ?_
    · intro h
      obtain ⟨v, hv, -⟩ := h
      cases hv
    · intro h
      cases hread.symm.trans h
  · rw [hstarted] at harrived
    obtain ⟨more, answer, hmore, hanswer, rfl⟩ := (sessions L).run_asked (fun _ => rfl) harrived htask
    obtain ⟨user, rfl, token, issued, -, hissued, -⟩ := (readToken_iff htokens hunforged).mp hread
    have hstays := session_stays (.arrive (.inr (.me authorization)) :: more) hissued.stored
    rw [sessionRun, run_append] at hstays
    have hfound : answer = .ok (some user) := by
      rcases hanswer with rfl | ⟨-, rfl⟩
      · show (AuthServer.gateAnswer (.userFindById user.id.toString) _).1 = _
        simp only [AuthServer.gateAnswer, ObjectId.cast_toString]
        exact congrArg Except.ok (find_account _ hstays)
      · exact absurd rfl hanswered
    subst hfound
    have hentered : (∃ v, profileOf (.ok (some user)) = .ok v ∧ entered v = some payload) ↔
        user.toPayload = payload := by
      simp [profileOf, entered, Account.toPayload]
    exact hentered.trans ⟨fun h => h ▸ hread, fun h => Option.some.inj (hread.symm.trans h)⟩

/-- `GET /api/auth/me` is answered with a profile. -/
theorem me_result {before after : List (Move SessionCall)} {authorization : Option Text}
    {v : AuthResult ⊕ GateResult}
    (htask : (sessionRun L clock (before ++ .arrive (.inr (.me authorization)) :: after)).tasks[
      (sessionRun L clock before).tasks.length]? = some ⟨.inr (.me authorization), .done (.ok v)⟩) :
    ∃ profile, v = .inr (.profile profile) := by
  have harrived := gate_arrives (L := L) (sessionRun L clock before) (.me authorization)
  rw [sessionRun, run_append] at htask
  rcases me_started (L := L) authorization (sessionRun L clock before).tasks.length (arrival
    (sessionRun L clock before).tasks.length (.inr (.me authorization))
    (sessionRun L clock before).world.state (sessionRun L clock before).world) with
    ⟨e, hstarted, -⟩ | ⟨payload, -, hstarted⟩
  · rw [hstarted] at harrived
    cases htask.symm.trans ((sessions L).run_done harrived after)
  · rw [hstarted] at harrived
    obtain ⟨more, answer, -, -, hv⟩ := (sessions L).run_asked (fun _ => rfl) harrived htask
    rcases answer with e | _ | user
    · cases hv
    · cases hv
    · cases hv
      exact ⟨_, rfl⟩

theorem truthy_of_admits (htokens : Tokens L) {c : SessionConfig} {call : GateCall} {user : Account}
    (h : Admits L c call user) : truthy call.token = true := by
  obtain ⟨token, issued, htoken, -, rfl, -⟩ := h
  rw [htoken]
  cases hsign : L.sign user.toPayload issued with
  | nil => exact absurd hsign (htokens.nonempty _ _)
  | cons c rest => rfl

/-- Who gets in is whom the token names as it is shown. -/
theorem entered_iff_readToken (htokens : Tokens L) {before after : List (Move SessionCall)}
    {call : GateCall} {r : Except Failure (AuthResult ⊕ GateResult)} {payload : JwtPayload}
    (hunforged : Unforged L clock (before ++ .arrive (.inr call) :: after))
    (htask : (sessionRun L clock (before ++ .arrive (.inr call) :: after)).tasks[
      (sessionRun L clock before).tasks.length]? = some ⟨.inr call, .done r⟩)
    (hanswered : r ≠ .error .queryFailed) : (∃ v, r = .ok v ∧ entered v = some payload) ↔
      readToken L (sessionRun L clock before).world.state.clock call.token = some payload := by
  cases call with
  | me authorization => exact me_iff htokens hunforged htask hanswered
  | handshake auth authorization =>
    have harrived := gate_arrives (L := L) (sessionRun L clock before) (.handshake auth authorization)
    rw [sessionRun, run_append] at htask
    obtain ⟨response, hstarted, hresponse⟩ := handshake_started (L := L) auth authorization
      (sessionRun L clock before).tasks.length (arrival (sessionRun L clock before).tasks.length
        (.inr (.handshake auth authorization)) (sessionRun L clock before).world.state
        (sessionRun L clock before).world)
    rw [hstarted] at harrived
    cases htask.symm.trans ((sessions L).run_done harrived after)
    have hentered : (∃ v, (.ok (.inr (.handshake response)) : Except Failure (AuthResult ⊕ GateResult)) =
        .ok v ∧ entered v = some payload) ↔ response = .ok payload := by
      rcases response with message | payload' <;> simp [entered]
    refine hentered.trans ((hresponse payload).trans ⟨fun h => h.2, fun h => ⟨?_, h⟩⟩)
    obtain ⟨user, -, hadmits⟩ := (readToken_iff htokens hunforged).mp h
    exact truthy_of_admits htokens hadmits

/-- **Who gets in**: whatever else happens before, meanwhile and after, a request with a token gets
in exactly if it shows a token that has been handed out before and has not expired, and it gets in
as the user whom the token was handed to. That a lookup fails on the way is left aside. -/
theorem entered_iff (L : Library) (clock : Nat) (moves before after : List (Move SessionCall))
    (call : GateCall) (r : Except Failure (AuthResult ⊕ GateResult)) (payload : JwtPayload)
    (htokens : Tokens L) (hunforged : Unforged L clock moves)
    (hmoves : moves = before ++ .arrive (.inr call) :: after)
    (htask : (sessionRun L clock moves).tasks[(sessionRun L clock before).tasks.length]? =
      some ⟨.inr call, .done r⟩) (hanswered : r ≠ .error .queryFailed) :
    (∃ v, r = .ok v ∧ entered v = some payload) ↔
      ∃ user, payload = user.toPayload ∧ Admits L (sessionRun L clock before) call user := by
  subst hmoves
  exact (entered_iff_readToken htokens hunforged htask hanswered).trans (readToken_iff htokens hunforged)

/-- The user has been created by a signup with this password. -/
def RegisteredWith (L : Library) (password : Text) (user : Account) (c : SessionConfig) : Prop :=
  ∃ pid limited body id salt input passwordHash now,
    .arrived pid (.inl (.signup limited body id salt)) ∈ c.world.log ∧
    (signupSchema L).parse body = .ok input ∧ input.password = password ∧
    .answered pid (.inl (.userCreate id input.username input.email passwordHash now)) (.ok user) ∈
      c.world.log

/-- **Nobody gets in without a password**: whoever gets in as a user shows a token that was handed
out to a request with the password of the user, or with one that bcrypt takes for it. -/
theorem entered_known (L : Library) (clock : Nat) (moves before after : List (Move SessionCall))
    (call : GateCall) (v : AuthResult ⊕ GateResult) (payload : JwtPayload) (htokens : Tokens L)
    (hunforged : Unforged L clock moves) (hmoves : moves = before ++ .arrive (.inr call) :: after)
    (htask : (sessionRun L clock moves).tasks[(sessionRun L clock before).tasks.length]? =
      some ⟨.inr call, .done (.ok v)⟩) (hentered : entered v = some payload) :
    ∃ user token request password, payload = user.toPayload ∧ call.token = .string token ∧
      (∃ pid : Nat, (sessionRun L clock before).tasks[pid]? =
        some ⟨.inl request, .done (.ok (.inl ⟨user, token⟩))⟩) ∧
      RegisteredWith L password user (sessionRun L clock before) ∧ request.Knows L user password := by
  subst hmoves
  have hread := (entered_iff_readToken htokens hunforged htask (by intro h; cases h)).mp ⟨v, rfl, hentered⟩
  obtain ⟨user, hpayload, token, issued, htoken, ⟨pid, request, hissued⟩, -⟩ :=
    (readToken_iff htokens hunforged).mp hread
  obtain ⟨e, haside⟩ := sessions_aside L clock before
  obtain ⟨password, ⟨pid', limited, body, id, salt, input, passwordHash, now, harrived, hparse, hinput,
    hcreated⟩, hknows⟩ := issued_known (haside.done hissued)
  refine ⟨user, token, request, password, hpayload, htoken, ⟨pid, hissued⟩, ?_, hknows⟩
  exact ⟨pid', limited, body, id, salt, input, passwordHash, now,
    haside.world.mem_arrived (by intro h; cases h) harrived, hparse, hinput,
    haside.world.mem_answered hcreated⟩

end

/-! A user who signs up and reloads the page. -/

/-- A text as a word, and back. -/
def sealText (text : Text) : Text :=
  text.flatMap fun c => if c = ' ' then ['_', 's'] else if c = '_' then ['_', '_'] else [c]

def unsealText : Text → Text
  | '_' :: 's' :: rest => ' ' :: unsealText rest
  | '_' :: c :: rest => c :: unsealText rest
  | c :: rest => c :: unsealText rest
  | [] => []

theorem unsealText_sealText (text : Text) : unsealText (sealText text) = text := by
  induction text with
  | nil => rfl
  | cons c rest ih =>
    by_cases hblank : c = ' '
    · subst hblank
      exact congrArg (List.cons ' ') ih
    · by_cases hmark : c = '_'
      · subst hmark
        exact congrArg (List.cons '_') ih
      · have hsealed : sealText (c :: rest) = c :: sealText rest := by
          simp [sealText, hblank, hmark]
        rw [hsealed, unsealText.eq_3 _ _ (fun _ h _ => hmark h) (fun _ _ h _ => hmark h), ih]

/-- `plainLibrary`, with tokens that are words. -/
def wordLibrary : Library :=
  {plainLibrary with
    sign := fun payload issued => sealText (plainSign payload issued)
    verify := fun token now => plainVerify (unsealText token) now
    verify_sign := fun payload issued now hle hlt => by
      rw [unsealText_sealText]
      exact plainLibrary.verify_sign payload issued now hle hlt}

theorem wordLibrary_tokens : Tokens wordLibrary where
  verifies := by
    intro payload issued now payload' h
    change plainVerify (unsealText (sealText (plainSign payload issued))) now = some payload' at h
    rw [unsealText_sealText] at h
    simp only [plainVerify, plainSign, plainRead_plainText, List.length_replicate, true_and] at h
    split at h
    · exact ⟨(Option.some.inj h).symm, ‹_›⟩
    · cases h
  nonempty payload issued h := by
    have hplain := congrArg unsealText h
    rw [show wordLibrary.sign payload issued = sealText (plainSign payload issued) from rfl,
      unsealText_sealText] at hplain
    simp [plainSign, plainText, unsealText] at hplain
  word payload issued h := by
    obtain ⟨c, -, hc⟩ := List.mem_flatMap.mp h
    split at hc
    · simp at hc
    · split at hc
      · simp at hc
      · rename_i hblank _
        exact hblank (List.mem_singleton.mp hc).symm

def sessionBody : Value :=
  .object [("username", .string "ann".toList), ("email", .string "ann@chat.io".toList),
    ("password", .string (longPassword 6))]

def sessionUser : Account :=
  ⟨⟨.ending 1, "ann".toList, "ann@chat.io".toList, .offline, 0⟩, plainHash (longPassword 6)⟩

def sessionToken : Text := sealText (plainSign sessionUser.toPayload 0)

def signedUp : List (Move SessionCall) :=
  [.arrive (.inl (.signup false sessionBody (.ending 1) [])), .answer 0, .resume 0, .answer 0, .resume 0,
    .answer 0, .resume 0]

def profileCall : GateCall := .me (some ("Bearer ".toList ++ sessionToken))

def reloaded : List (Move SessionCall) := signedUp ++ .arrive (.inr profileCall) :: [.answer 1, .resume 1]

theorem signedUp_issued : Issued (sessionRun wordLibrary 0 signedUp) sessionUser sessionToken :=
  ⟨0, .signup false sessionBody (.ending 1) [], rfl⟩

theorem reloaded_task : (sessionRun wordLibrary 0 reloaded).tasks[1]? =
    some ⟨.inr profileCall, .done (.ok (.inr (.profile sessionUser.toUser)))⟩ := rfl

theorem reloaded_split {before after : List (Move SessionCall)} {call : GateCall}
    (h : reloaded = before ++ .arrive (.inr call) :: after) : before = signedUp ∧ call = profileCall := by
  rcases List.append_eq_append_iff.mp h with ⟨more, rfl, hmore⟩ | ⟨more, hmore, hrest⟩
  · cases more with
    | nil =>
      cases hmore
      exact ⟨List.append_nil _, rfl⟩
    | cons m more =>
      obtain ⟨rfl, hrest⟩ := List.cons.inj hmore
      have hmem : Move.arrive (Sum.inr call : SessionCall) ∈ [Move.answer 1, .resume 1] :=
        hrest ▸ List.mem_append_right more (.head _)
      simp at hmem
  · cases more with
    | nil =>
      cases hrest
      exact ⟨(hmore.trans (List.append_nil _)).symm, rfl⟩
    | cons m more =>
      obtain ⟨rfl, -⟩ := List.cons.inj hrest
      have hmem : Move.arrive (Sum.inr call : SessionCall) ∈ signedUp := hmore ▸ List.mem_append_right before (.head _)
      simp [signedUp] at hmem

theorem reloaded_unforged : Unforged wordLibrary 0 reloaded := by
  intro before call after token now hmoves htoken _
  obtain ⟨rfl, rfl⟩ := reloaded_split hmoves
  have hshown : profileCall.token = .string sessionToken := rfl
  cases hshown.symm.trans htoken
  exact ⟨sessionUser, signedUp_issued⟩

theorem entered_iff_reloaded :
    (∃ v, (.ok (.inr (.profile sessionUser.toUser)) : Except Failure (AuthResult ⊕ GateResult)) = .ok v ∧
        entered v = some sessionUser.toPayload) ↔
      ∃ user, sessionUser.toPayload = user.toPayload ∧
        Admits wordLibrary (sessionRun wordLibrary 0 signedUp) profileCall user :=
  entered_iff wordLibrary 0 reloaded signedUp [.answer 1, .resume 1] profileCall _ sessionUser.toPayload
    wordLibrary_tokens reloaded_unforged rfl reloaded_task (by intro h; cases h)

theorem entered_known_reloaded : ∃ user token request password, sessionUser.toPayload = user.toPayload ∧
    profileCall.token = .string token ∧
    (∃ pid : Nat, (sessionRun wordLibrary 0 signedUp).tasks[pid]? =
      some ⟨.inl request, .done (.ok (.inl ⟨user, token⟩))⟩) ∧
    RegisteredWith wordLibrary password user (sessionRun wordLibrary 0 signedUp) ∧
    request.Knows wordLibrary user password :=
  entered_known wordLibrary 0 reloaded signedUp [.answer 1, .resume 1] profileCall _ sessionUser.toPayload
    wordLibrary_tokens reloaded_unforged rfl reloaded_task rfl

end RealtimeChat
