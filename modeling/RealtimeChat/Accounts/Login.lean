import RealtimeChat.Accounts.Lawful

/-! Who can log in.

A login with a known email goes by `bcrypt.compare`, which reads 72 bytes of the
password it is given and of that of the signup. `signupSchema` counts UTF-16 units,
and `loginSchema` has no limit: a password that goes on after what bcrypt has read is
let in with any other ending. Logins are right exactly where nobody has signed up with
such another password (`login_iff`). -/
namespace RealtimeChat
open Data (Text trim toLowerCase trim_trim)
open Zod (Value Schema)
open Async Async.System

/-- The email is that of the user, whose password at signup was this one. -/
def Owns (L : Library) (email password : Text) (user : Account) (log : AuthLog) : Prop :=
  user.email = toLowerCase (trim email) ∧ SignedUp L password user log

/-- Somebody has signed up with the email and another password that bcrypt takes for this
one. -/
def Confused (L : Library) (email password : Text) (log : AuthLog) : Prop :=
  ∃ user other, Owns L email other user log ∧ other ≠ password ∧ bytesRead other = bytesRead password

/-- A login that has ended with `r`, where `earlier` had happened when it looked for the
user: it succeeds exactly for the user with that password, and its token verifies to the
user's id until it expires. -/
structure LoginRight (L : Library) (pid : Nat) (email password : Text)
    (r : Except Failure AuthResult) (earlier log : AuthLog) : Prop where
  succeeds : (∃ result, r = .ok result) ↔ ∃ user, Owns L email password user earlier
  verifies : ∀ result user, r = .ok result → Owns L email password user earlier →
    ∃ issued, .acted pid .now issued ∈ log ∧ ∀ now, issued ≤ now →
      now / 1000 < issued / 1000 + L.expiresIn →
      (L.verify result.token now).map JwtPayload.userId = some user.id.toString

section
variable (L : Library)

theorem email_eq_ok {v : Value} {s : Text} (h : email L v = ⟨some s, []⟩) :
    ∃ given, v = .string given ∧ s = trim given := by
  obtain ⟨given, hgiven, rfl⟩ := Schema.map_eq_ok.mp (Schema.refine_eq_ok.mp h).1
  cases v with
  | string t =>
    cases hgiven
    exact ⟨_, rfl, rfl⟩
  | _ => cases hgiven

theorem loginPassword_eq_ok {v : Value} {s : Text} (h : loginPassword v = ⟨some s, []⟩) :
    v = .string s := by
  have hread := (Schema.refine_eq_ok.mp h).1
  cases v with
  | string t =>
    cases hread
    rfl
  | _ => cases hread

/-- What a login reads of its body: the email trimmed, and the password as it is. -/
theorem login_input {body : Value} {input : LoginInput}
    (h : (loginSchema L).parse body = .ok input) : ∃ given,
      body.get "email" = .string given ∧ input.email = trim given ∧
      body.get "password" = .string input.password := by
  obtain ⟨⟨read, password⟩, hfields, rfl⟩ :=
    Schema.map_eq_ok.mp (Schema.object_eq_ok (Schema.parse_eq_ok.mp h))
  obtain ⟨hemail, hpassword⟩ := Schema.both_eq_ok.mp hfields
  obtain ⟨given, hgiven, hread⟩ := email_eq_ok L (Schema.under_eq_ok.mp hemail)
  exact ⟨given, hgiven, hread, loginPassword_eq_ok (Schema.under_eq_ok.mp hpassword)⟩

variable {L} (clock : Nat) (moves : List (Move AuthCall))

/-- bcrypt never fails. -/
theorem hash_answer {pid : Nat} {password salt : Text} {r : Except Failure Text}
    (h : .answered pid (.bcryptHash password salt) r ∈
      ((auth L).run (Config.start (AuthServer.boot clock)) moves).world.log) :
    r = .ok (L.hash password salt) := by
  rcases (auth L).run_answerable (AuthServer.boot clock) moves _ h with ⟨s, hanswer⟩ | ⟨hfallible, _⟩
  · exact hanswer
  · cases hfallible

theorem compare_answer {pid : Nat} {candidate hash : Text} {r : Except Failure Bool}
    (h : .answered pid (.bcryptCompare candidate hash) r ∈
      ((auth L).run (Config.start (AuthServer.boot clock)) moves).world.log) :
    r = .ok (L.compare candidate hash) := by
  rcases (auth L).run_answerable (AuthServer.boot clock) moves _ h with ⟨s, hanswer⟩ | ⟨hfallible, _⟩
  · exact hanswer
  · cases hfallible

variable {moves} in
/-- A user is to be created by a signup, with what its body has been read to and the hash of its
password. The signup has created nobody before. -/
theorem create_signup {pid : Nat} {id : ObjectId} {username email passwordHash : Text} {now : Nat}
    {r : Except Failure Account} {later earlier : AuthLog}
    (hlog : ((auth L).run (Config.start (AuthServer.boot clock)) moves).world.log =
      later ++ .answered pid (.userCreate id username email passwordHash now) r :: earlier) :
    ∃ limited body salt input task,
      ((auth L).run (Config.start (AuthServer.boot clock)) moves).tasks[pid]? =
        some ⟨.signup limited body id salt, task⟩ ∧
      (signupSchema L).parse body = .ok input ∧ username = input.username ∧ email = input.email ∧
      passwordHash = L.hash input.password salt ∧
      ∀ id' username' email' passwordHash' now' r',
        .answered pid (.userCreate id' username' email' passwordHash' now') r' ∉ earlier := by
  obtain ⟨call, task, htask, hlaw⟩ := (auth_run L (AuthServer.boot clock) moves).law hlog rfl
  cases call with
  | login limited body => exact hlaw.elim
  | signup limited body id' salt =>
    obtain ⟨input, hparse, rfl, rfl, rfl, hbefore⟩ := hlaw
    have hbefore : deeds pid earlier = _ := hbefore
    refine ⟨limited, body, salt, input, task, htask, hparse, rfl, rfl, ?_, ?_⟩
    · have hhashed : .answered pid (.bcryptHash input.password salt) (.ok passwordHash) ∈ earlier := by
        rw [← mem_deeds_answered, hbefore]
        exact .tail _ (.head _)
      have hmem := List.mem_append_right later (List.mem_cons_of_mem
        (.answered pid (.userCreate id input.username input.email passwordHash now) r) hhashed)
      rw [← hlog] at hmem
      exact Except.ok.inj (hash_answer clock moves hmem)
    · intro id' username' email' passwordHash' now' r' hmem
      rw [← mem_deeds_answered, hbefore] at hmem
      simp at hmem

/-- An account holds the hash of the password that its user signed up with. -/
theorem stored_signedUp {user : Account}
    (h : user ∈ ((auth L).run (Config.start (AuthServer.boot clock)) moves).world.state.accounts.docs) :
    ∃ password salt, user.passwordHash = L.hash password salt ∧
      SignedUp L password user ((auth L).run (Config.start (AuthServer.boot clock)) moves).world.log := by
  have hrecalled := run_recalled L clock moves
  obtain ⟨pid, id, username, email, passwordHash, now, hcreated⟩ := hrecalled.stored user h
  obtain ⟨later, earlier, hlog⟩ := List.append_of_mem hcreated
  obtain ⟨limited, body, salt, input, task, htask, hparse, rfl, rfl, hhash, -⟩ :=
    create_signup clock hlog
  exact ⟨input.password, salt, (hrecalled.created hcreated).2.2.trans hhash, pid, limited, body, id, salt,
    input, passwordHash, now, (auth_run L (AuthServer.boot clock) moves).arrived pid _ htask, hparse, rfl,
    hcreated⟩

theorem SignedUp.stored {password : Text} {user : Account}
    (h : SignedUp L password user
      ((auth L).run (Config.start (AuthServer.boot clock)) moves).world.log) :
    user ∈ ((auth L).run (Config.start (AuthServer.boot clock)) moves).world.state.accounts.docs := by
  obtain ⟨pid, limited, body, id, salt, input, passwordHash, now, -, -, -, hcreated⟩ := h
  exact ((run_recalled L clock moves).created hcreated).1

/-- A user has signed up once. -/
theorem SignedUp.unique {password password' : Text} {user : Account}
    (h : SignedUp L password user
      ((auth L).run (Config.start (AuthServer.boot clock)) moves).world.log)
    (h' : SignedUp L password' user
      ((auth L).run (Config.start (AuthServer.boot clock)) moves).world.log) :
    password = password' := by
  obtain ⟨pid, limited, body, id, salt, input, hash, now, harrived, hparse, rfl, hcreated⟩ := h
  obtain ⟨pid', limited', body', id', salt', input', hash', now', harrived', hparse', rfl, hcreated'⟩ := h'
  obtain rfl := (run_recalled L clock moves).creator hcreated hcreated'
  have hpresent := (Present.start (AuthServer.boot clock)).run (auth L) moves
  cases hpresent.unique harrived harrived'
  rw [hparse] at hparse'
  cases hparse'
  rfl

/-- There is one account with an email, and one password to it. -/
theorem Owns.unique {email password password' : Text} {user user' : Account}
    (h : Owns L email password user
      ((auth L).run (Config.start (AuthServer.boot clock)) moves).world.log)
    (h' : Owns L email password' user'
      ((auth L).run (Config.start (AuthServer.boot clock)) moves).world.log) :
    user = user' ∧ password = password' := by
  obtain rfl := Accounts.eq_of_email _ (SignedUp.stored clock moves h.2)
    (SignedUp.stored clock moves h'.2) (h.1.trans h'.1.symm)
  exact ⟨rfl, SignedUp.unique clock moves h.2 h'.2⟩

theorem owns_trim {email password : Text} {user : Account} {log : AuthLog} :
    Owns L (trim email) password user log ↔ Owns L email password user log := by
  rw [Owns, trim_trim, Owns]

section
variable {moves} {pid : Nat} {spelling : Text} {later earlier : AuthLog}

/-- A lookup that finds nobody: nobody had signed up with that email. -/
theorem lookup_none
    (hlog : ((auth L).run (Config.start (AuthServer.boot clock)) moves).world.log =
      later ++ .answered pid (.userFindByEmail spelling) (.ok none) :: earlier)
    (password : Text) (user : Account) : ¬ Owns L spelling password user earlier := by
  intro h
  obtain ⟨before, -, rfl, hlookup⟩ := (auth L).run_answer hlog
  have hpick := Except.ok.inj (Prod.mk.inj hlookup).1
  exact List.filter_eq_nil_iff.mp (L.pick_none hpick) user (SignedUp.stored clock before h.2)
    (beq_iff_eq.mpr h.1)

/-- A lookup that finds a user, with the one password that goes with that email. -/
theorem lookup_some {user : Account}
    (hlog : ((auth L).run (Config.start (AuthServer.boot clock)) moves).world.log =
      later ++ .answered pid (.userFindByEmail spelling) (.ok (some user)) :: earlier) :
    ∃ password salt, user.passwordHash = L.hash password salt ∧
      Owns L spelling password user earlier ∧
      ∀ p other, Owns L spelling p other earlier → other = user ∧ p = password := by
  obtain ⟨before, -, rfl, hlookup⟩ := (auth L).run_answer hlog
  have hpick := Except.ok.inj (Prod.mk.inj hlookup).1
  obtain ⟨hmem, hfound⟩ := List.mem_filter.mp (L.pick_mem hpick)
  obtain ⟨password, salt, hhash, hsigned⟩ := stored_signedUp clock before hmem
  have howner := And.intro (beq_iff_eq.mp hfound) hsigned
  exact ⟨password, salt, hhash, howner, fun p other h => Owns.unique clock before h howner⟩

end

/-- A login that has found its user: it succeeds if bcrypt reads the same of both passwords,
with a token that is signed right then. -/
theorem login_found {pid : Nat} {limited : Bool} {body : Value} {r : Except Failure AuthResult} {input : LoginInput}
    {email given salt : Text} {user : Account}
    (htask : ((auth L).run (Config.start (AuthServer.boot clock)) moves).tasks[pid]? =
      some ⟨.login limited body, .done r⟩)
    (hparse : (loginSchema L).parse body = .ok input)
    (hfound : .answered pid (.userFindByEmail email) (.ok (some user)) ∈
      ((auth L).run (Config.start (AuthServer.boot clock)) moves).world.log)
    (hhash : user.passwordHash = L.hash given salt) :
    ((∃ result, r = .ok result) ↔ bytesRead input.password = bytesRead given) ∧
      ∀ result, r = .ok result → ∃ issued, result = ⟨user, L.sign user.toPayload issued⟩ ∧
        .acted pid .now issued ∈ ((auth L).run (Config.start (AuthServer.boot clock)) moves).world.log := by
  obtain ⟨input', isMatch, hparse', hcompare, hgood, hbad⟩ :=
    (auth_run L (AuthServer.boot clock) moves).obeys pid _ htask email (some user)
      (mem_deeds_answered.mpr hfound)
  rw [hparse] at hparse'
  cases hparse'
  have hmatch : isMatch = .ok true ↔ bytesRead input.password = bytesRead given := by
    rw [← L.compare_hash input.password given salt, ← hhash,
      compare_answer clock moves (mem_deeds_answered.mp hcompare)]
    exact ⟨fun h => Except.ok.inj h, fun h => congrArg Except.ok h⟩
  have hsucceeds : ∀ {result}, r = .ok result → isMatch = .ok true := by
    intro result hr
    by_contra hnot
    obtain ⟨e, he⟩ := hbad hnot
    cases hr.symm.trans he
  refine ⟨⟨fun h => ?_, fun h => ?_⟩, fun result hr => ?_⟩
  · obtain ⟨result, hr⟩ := h
    exact hmatch.mp (hsucceeds hr)
  · obtain ⟨now, _, hr⟩ := hgood (hmatch.mpr h)
    exact ⟨_, hr⟩
  · obtain ⟨issued, hissued, hresult⟩ := hgood (hsucceeds hr)
    exact ⟨issued, Except.ok.inj (hr.symm.trans hresult), mem_deeds_acted.mp hissued⟩

end

section
variable {L : Library} {pid : Nat} {email password : Text} {earlier log : AuthLog}

/-- It is right that a login fails where nobody has the email. -/
theorem LoginRight.nobody (hnobody : ∀ p user, ¬ Owns L email p user earlier) (e : Failure) :
    LoginRight L pid email password (.error e) earlier log where
  succeeds := by
    refine iff_of_false (fun h => ?_) fun h => ?_
    · obtain ⟨result, h⟩ := h
      cases h
    · obtain ⟨user, h⟩ := h
      exact hnobody _ user h
  verifies := by
    intro result user h
    cases h

/-- Where one user has the email, what bcrypt reads decides rightly for all passwords but those
that it takes for the user's. -/
theorem loginRight_iff {r : Except Failure AuthResult} {user : Account} {given : Text}
    (howner : Owns L email given user earlier)
    (hunique : ∀ p other, Owns L email p other earlier → other = user ∧ p = given)
    (hsucceeds : (∃ result, r = .ok result) ↔ bytesRead password = bytesRead given)
    (hsigned : ∀ result, r = .ok result → ∃ issued,
      result = ⟨user, L.sign user.toPayload issued⟩ ∧ .acted pid .now issued ∈ log) :
    LoginRight L pid email password r earlier log ↔ ¬ Confused L email password earlier := by
  constructor
  · intro hright hconfused
    obtain ⟨other, p, howns, hne, hsame⟩ := hconfused
    obtain ⟨rfl, rfl⟩ := hunique _ _ howns
    obtain ⟨owner, hreal⟩ := hright.succeeds.mp (hsucceeds.mpr hsame.symm)
    exact hne (hunique _ _ hreal).2.symm
  · intro hclear
    have hexact : bytesRead password = bytesRead given → given = password := by
      intro hsame
      by_contra hne
      exact hclear ⟨user, given, howner, hne, hsame.symm⟩
    refine ⟨hsucceeds.trans ⟨fun h => ⟨user, hexact h ▸ howner⟩, fun h => ?_⟩,
      fun result other hr h => ?_⟩
    · obtain ⟨other, h⟩ := h
      rw [(hunique _ _ h).2]
    · obtain ⟨rfl, -⟩ := hunique _ _ h
      obtain ⟨issued, rfl, hissued⟩ := hsigned result hr
      refine ⟨issued, hissued, fun now hle hlt => ?_⟩
      rw [L.verify_sign _ issued now hle hlt]
      rfl

end

/-- **Which logins are right.** In any run of signups and logins, a login that has looked
for its user succeeds exactly where its email and password are those of a user, with a
token for that user, if and only if nobody has signed up with that email and another
password that bcrypt takes for the one given. -/
theorem login_iff (L : Library) (clock : Nat) (moves : List (Move AuthCall)) {pid : Nat} {limited : Bool}
    {body : Value} {r : Except Failure AuthResult} {input : LoginInput} {email password : Text}
    {found : Option Account} {later earlier : AuthLog}
    (htask : ((auth L).run (Config.start (AuthServer.boot clock)) moves).tasks[pid]? =
      some ⟨.login limited body, .done r⟩)
    (hparse : (loginSchema L).parse body = .ok input)
    (hemail : body.get "email" = .string email) (hpassword : body.get "password" = .string password)
    (hlog : ((auth L).run (Config.start (AuthServer.boot clock)) moves).world.log =
      later ++ .answered pid (.userFindByEmail input.email) (.ok found) :: earlier) :
    LoginRight L pid email password r earlier
        ((auth L).run (Config.start (AuthServer.boot clock)) moves).world.log ↔
      ¬ Confused L email password earlier := by
  obtain ⟨given, hgiven, htrimmed, hread⟩ := login_input L hparse
  rw [hemail] at hgiven
  rw [hpassword] at hread
  cases hgiven
  cases hread
  have hfound : .answered pid (.userFindByEmail input.email) (.ok found) ∈
      ((auth L).run (Config.start (AuthServer.boot clock)) moves).world.log := by
    rw [hlog]
    exact List.mem_append_right _ (.head _)
  rw [htrimmed] at hlog
  cases found with
  | none =>
    have hnobody : ∀ p user, ¬ Owns L email p user earlier := fun p user h =>
      lookup_none clock hlog p user (owns_trim.mpr h)
    obtain ⟨e, rfl⟩ := (auth_run L (AuthServer.boot clock) moves).obeys pid _ htask input.email none
      (mem_deeds_answered.mpr hfound)
    refine iff_of_true (.nobody hnobody e) fun h => ?_
    obtain ⟨user, other, h, _⟩ := h
    exact hnobody other user h
  | some user =>
    obtain ⟨given, salt, hhash, howner, hunique⟩ := lookup_some clock hlog
    simp only [owns_trim] at howner hunique
    obtain ⟨hsucceeds, hsigned⟩ := login_found clock moves htask hparse hfound hhash
    exact loginRight_iff howner hunique hsucceeds hsigned

/-! A password of 72 bytes, and one that goes on. -/

/-- A token in the clear: every text by its length, then the time. -/
def plainText (text : Text) : Text := List.replicate text.length '1' ++ '0' :: text

def plainRead (token : Text) : Text × Text :=
  let n := (token.takeWhile (· == '1')).length
  ((token.drop (n + 1)).take n, (token.drop (n + 1)).drop n)

def plainSign (payload : JwtPayload) (issued : Nat) : Text :=
  plainText payload.userId ++ (plainText payload.username ++ (plainText payload.email ++
    List.replicate issued '1'))

def plainVerify (token : Text) (now : Nat) : Option JwtPayload :=
  let (userId, token') := plainRead token
  let (username, token'') := plainRead token'
  let (email, time) := plainRead token''
  if plainSign ⟨userId, username, email⟩ time.length = token ∧
      now / 1000 < time.length / 1000 + 604800 then some ⟨userId, username, email⟩ else none

def plainHash (password : Text) : Text := (bytesRead password).map fun b => Char.ofNat b.toNat

theorem plainRead_plainText (text rest : Text) : plainRead (plainText text ++ rest) = (text, rest) := by
  have hcount : (plainText text ++ rest).takeWhile (· == '1') = List.replicate text.length '1' := by
    rw [plainText, List.append_assoc, List.cons_append, List.takeWhile_append_of_pos (by simp)]
    simp
  have hdrop : (plainText text ++ rest).drop (text.length + 1) = text ++ rest := by
    rw [plainText, List.append_assoc, List.cons_append, List.drop_append]
    simp
  simp [plainRead, hcount, hdrop]

theorem plainHash_inj {password password' : Text} :
    plainHash password = plainHash password' ↔ bytesRead password = bytesRead password' := by
  refine ⟨fun h => List.map_injective_iff.mpr (fun b b' hb => ?_) h, fun h => ?_⟩
  · have hvalid : ∀ b : UInt8, (Char.ofNat b.toNat).toNat = b.toNat := by
      intro b
      have := b.toNat_lt
      rw [Char.ofNat, dif_pos (.inl (by omega))]
      rfl
    exact UInt8.toNat.inj ((hvalid b).symm.trans ((congrArg Char.toNat hb).trans (hvalid b')))
  · exact congrArg (List.map fun b : UInt8 => Char.ofNat b.toNat) h

def plainLibrary : Library where
  isEmail s := s.contains '@'
  hash password _ := plainHash password
  compare candidate hash := plainHash candidate == hash
  compare_hash _ _ _ := beq_iff_eq.trans plainHash_inj
  expiresIn := 604800
  sign := plainSign
  verify := plainVerify
  verify_sign payload issued now hle hlt := by
    simp only [plainVerify, plainSign, plainRead_plainText, List.length_replicate, hlt,
      and_true, if_true]
  pick := List.head?
  pick_mem h := List.mem_of_head? h
  pick_none h := List.head?_eq_none_iff.mp h

def longPassword (n : Nat) : Text := List.replicate n 'a'

def signupBody : Value :=
  .object [("username", .string "ann".toList), ("email", .string "ann@chat.io".toList),
    ("password", .string (longPassword 72))]

def loginBody : Value :=
  .object [("email", .string "Ann@chat.io".toList), ("password", .string (longPassword 73))]

def looseLogin : List (Move AuthCall) :=
  [.arrive (.signup false signupBody (.ending 1) []), .answer 0, .resume 0, .answer 0, .resume 0,
    .answer 0, .resume 0, .arrive (.login false loginBody), .answer 1, .resume 1, .answer 1, .resume 1]

def looseRun : Config authInterface AuthServer Failure AuthCall AuthResult :=
  (auth plainLibrary).run (Config.start (.boot 0)) looseLogin

def ann : Account :=
  ⟨⟨.ending 1, "ann".toList, "ann@chat.io".toList, .offline, 0⟩, plainHash (longPassword 72)⟩

def annResult : AuthResult := ⟨ann, plainSign ann.toPayload 0⟩

theorem looseRun_task : looseRun.tasks[1]? = some ⟨.login false loginBody, .done (.ok annResult)⟩ := rfl

theorem login_iff_loose :
    LoginRight plainLibrary 1 "Ann@chat.io".toList (longPassword 73) (.ok annResult)
        (looseRun.world.log.drop 3) looseRun.world.log ↔
      ¬ Confused plainLibrary "Ann@chat.io".toList (longPassword 73) (looseRun.world.log.drop 3) :=
  @login_iff plainLibrary 0 looseLogin 1 false loginBody (.ok annResult)
    ⟨"Ann@chat.io".toList, longPassword 73⟩ _ _ (some ann) (looseRun.world.log.take 2)
    (looseRun.world.log.drop 3) looseRun_task rfl rfl rfl rfl

/-- The login has succeeded, with a password that nobody has signed up with. -/
theorem loose_enters : looseRun.tasks[1]? = some ⟨.login false loginBody, .done (.ok annResult)⟩ ∧
    ¬ LoginRight plainLibrary 1 "Ann@chat.io".toList (longPassword 73) (.ok annResult)
        (looseRun.world.log.drop 3) looseRun.world.log := by
  refine ⟨looseRun_task, fun h => ?_⟩
  obtain ⟨user, _, pid, limited, body, id, salt, input, hash, now, harrived, hparse, hpassword, _⟩ :=
    h.succeeds.mp ⟨_, rfl⟩
  have harrivals : arrivals looseRun.world.log =
    [.login false loginBody, .signup false signupBody (.ending 1) []] := rfl
  have hmem := mem_arrivals (List.mem_of_mem_drop harrived)
  rw [harrivals] at hmem
  obtain ⟨-, rfl, -, -⟩ : limited = false ∧ body = signupBody ∧ id = .ending 1 ∧ salt = [] := by
    simpa using hmem
  have hsigned : (signupSchema plainLibrary).parse signupBody =
      .ok ⟨"ann".toList, "ann@chat.io".toList, longPassword 72⟩ := rfl
  rw [hsigned] at hparse
  cases hparse
  exact absurd (congrArg List.length hpassword) (by decide)

end RealtimeChat
