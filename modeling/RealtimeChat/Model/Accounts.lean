import RealtimeChat.Model.Server

/-! Users as the authentication service sees them (`src/models/User.model.ts`), and
what the libraries do with them.

The libraries are given: Zod decides what an email address is, bcrypt hashes and
compares passwords, jsonwebtoken signs and verifies, and MongoDB picks one of
several documents that match. What is known of them are the laws in `Library`. -/
namespace RealtimeChat
open Data (Text trim toLowerCase utf16Length utf8)

/-- A user with the hash of the password. -/
structure Account extends User where
  passwordHash : Text
deriving DecidableEq

/-- `src/utils/jwt.ts` -/
structure JwtPayload where
  userId : Text
  username : Text
  email : Text
deriving DecidableEq

def Account.toPayload (user : Account) : JwtPayload :=
  ⟨user.id.toString, user.username, user.email⟩

/-- What bcrypt reads of a password. -/
def bytesRead (password : Text) : List UInt8 := (utf8 password).take 72

structure Library where
  /-- `z.string().email()`. Zod accepts no text that is not ASCII. -/
  isEmail : Text → Bool
  /-- `bcrypt.hash(password, SALT_ROUNDS)`, given the salt it draws -/
  hash : (password salt : Text) → Text
  /-- `bcrypt.compare(candidate, hash)` -/
  compare : (candidate hash : Text) → Bool
  /-- Passwords are told apart by what is read of them, and by nothing else. -/
  compare_hash : ∀ candidate password salt,
    compare candidate (hash password salt) = true ↔ bytesRead candidate = bytesRead password
  /-- `jwt.sign(payload, secret, { expiresIn })`, in seconds, at a time -/
  expiresIn : Nat
  sign : JwtPayload → Nat → Text
  /-- `jwt.verify(token, secret)`, at a time -/
  verify : Text → Nat → Option JwtPayload
  verify_sign : ∀ payload issued now, issued ≤ now → now / 1000 < issued / 1000 + expiresIn →
    verify (sign payload issued) now = some payload
  /-- Which of the documents that match `findOne` returns -/
  pick : List Account → Option Account
  pick_mem : ∀ {matching user}, pick matching = some user → user ∈ matching
  pick_none : ∀ {matching}, pick matching = none → matching = []

/-- The collection, with its three unique indexes. -/
structure Accounts where
  docs : List Account
  ids : (docs.map fun user => user.id).Nodup
  usernames : (docs.map fun user => user.username).Nodup
  emails : (docs.map fun user => user.email).Nodup

namespace Accounts

def empty : Accounts := ⟨[], .nil, .nil, .nil⟩

theorem nodup_append {κ : Type} {key : Account → κ} {docs : List Account} {user : Account}
    (h : (docs.map key).Nodup) (hnew : ∀ other ∈ docs, key other ≠ key user) :
    ((docs ++ [user]).map key).Nodup := by
  rw [List.map_append, List.map_singleton, List.nodup_append]
  refine ⟨h, List.nodup_singleton _, fun k hk k' hk' heq => ?_⟩
  obtain ⟨other, hother, rfl⟩ := List.mem_map.mp hk
  exact hnew other hother (heq.trans (List.mem_singleton.mp hk'))

/-- Refused where one of the indexes has the key already. -/
def insert (accounts : Accounts) (user : Account) : Option Accounts :=
  if h : ∀ other ∈ accounts.docs,
      other.id ≠ user.id ∧ other.username ≠ user.username ∧ other.email ≠ user.email then
    some
      { docs := accounts.docs ++ [user]
        ids := nodup_append accounts.ids fun other hother => (h other hother).1
        usernames := nodup_append accounts.usernames fun other hother => (h other hother).2.1
        emails := nodup_append accounts.emails fun other hother => (h other hother).2.2 }
  else none

theorem insert_eq_some {accounts accounts' : Accounts} {user : Account}
    (h : accounts.insert user = some accounts') : accounts'.docs = accounts.docs ++ [user] ∧
      ∀ other ∈ accounts.docs,
        other.id ≠ user.id ∧ other.username ≠ user.username ∧ other.email ≠ user.email := by
  unfold insert at h
  split at h
  · rename_i hnew
    obtain rfl := Option.some.inj h
    exact ⟨rfl, hnew⟩
  · cases h

theorem eq_of_email (accounts : Accounts) {user user' : Account} (h : user ∈ accounts.docs)
    (h' : user' ∈ accounts.docs) (he : user.email = user'.email) : user = user' :=
  List.inj_on_of_nodup_map accounts.emails h h' he

end Accounts

/-- What the authentication requests share. -/
structure AuthServer where
  accounts : Accounts
  /-- `Date.now()` -/
  clock : Nat

/-! ### The interface of the service -/

inductive AuthAction where
  /-- `Date.now()`, as Mongoose's defaults and `jwt.sign` read it -/
  | now

abbrev AuthAction.Reply : AuthAction → Type
  | .now => Nat

inductive AuthQuery where
  /-- `User.findOne({ $or: [{ email }, { username }] })` -/
  | userFindConflict (email username : Text)
  /-- `User.findOne({ email })` -/
  | userFindByEmail (email : Text)
  /-- `User.create({ username, email, passwordHash })`, issued at `now` -/
  | userCreate (id : ObjectId) (username email passwordHash : Text) (now : Nat)
  /-- `bcrypt.hash(password, SALT_ROUNDS)`; it draws the salt. -/
  | bcryptHash (password salt : Text)
  /-- `bcrypt.compare(candidate, hash)` -/
  | bcryptCompare (candidate hash : Text)

abbrev AuthQuery.Answer : AuthQuery → Type
  | .userFindConflict _ _ => Option Account
  | .userFindByEmail _ => Option Account
  | .userCreate _ _ _ _ _ => Account
  | .bcryptHash _ _ => Text
  | .bcryptCompare _ _ => Bool

/-- Only a database call may fail on the way. -/
def AuthQuery.fallible : AuthQuery → Bool
  | .bcryptHash _ _ => false
  | .bcryptCompare _ _ => false
  | _ => true

abbrev authInterface : Async.Interface where
  Action := AuthAction
  Reply := AuthAction.Reply
  Query := AuthQuery
  Answer := AuthQuery.Answer

/-- A program of the authentication service. -/
abbrev Auth (α : Type) := Async.Program authInterface Failure α

namespace Auth

abbrev perform (a : AuthAction) : Auth a.Reply := Async.Program.perform (I := authInterface) a

abbrev query (q : AuthQuery) : Auth q.Answer := Async.Program.query (I := authInterface) q

end Auth

/-! ### What its steps do

The setters of the schema trim and lower-case what is stored, and what a filter asks
for. -/

namespace AuthServer

/-- A server without accounts. -/
def boot (clock : Nat) : AuthServer := ⟨.empty, clock⟩

def act (a : AuthAction) (s : AuthServer) : a.Reply × AuthServer :=
  match a with
  | .now => (s.clock, s)

/-- `required`, `minlength` and `maxlength` -/
def validates (user : Account) : Bool :=
  3 ≤ utf16Length user.username && utf16Length user.username ≤ 30 && !user.email.isEmpty &&
    !user.passwordHash.isEmpty

def createUser (user : Account) (s : AuthServer) : Except Failure Account × AuthServer :=
  if validates user then
    match s.accounts.insert user with
    | some accounts => (.ok user, {s with accounts})
    | none => (.error .duplicateKey, s)
  else (.error .validationError, s)

def answer (L : Library) (q : AuthQuery) (s : AuthServer) : Except Failure q.Answer × AuthServer :=
  match q with
  | .userFindConflict email username =>
    (.ok (L.pick (s.accounts.docs.filter fun user =>
      user.email == toLowerCase (trim email) || user.username == trim username)), s)
  | .userFindByEmail email =>
    (.ok (L.pick (s.accounts.docs.filter fun user => user.email == toLowerCase (trim email))), s)
  | .userCreate id username email passwordHash now =>
    s.createUser ⟨⟨id, trim username, toLowerCase (trim email), .offline, now⟩, passwordHash⟩
  | .bcryptHash password salt => (.ok (L.hash password salt), s)
  | .bcryptCompare candidate hash => (.ok (L.compare candidate hash), s)

end AuthServer

end RealtimeChat
