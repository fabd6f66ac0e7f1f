import RealtimeChat.Async.Beside
import RealtimeChat.Handlers.Auth

/-! The requests that show a token: a socket's handshake
(`src/middlewares/socketAuth.middleware.ts`), and `GET /api/auth/me` behind
`src/middlewares/auth.middleware.ts`.

They read the time and the accounts, and change neither. Beside the signups and the
logins they make the service that issues tokens and takes them (`sessions`), and the
signups and the logins do not notice them (`sessions_aside`). -/
namespace RealtimeChat
open Data (Text)
open Zod (Value)
open Async

inductive GateAction where
  /-- `Date.now()`, as `jwt.verify` reads it -/
  | now

abbrev GateAction.Reply : GateAction → Type
  | .now => Nat

inductive GateQuery where
  /-- `User.findById(id)` -/
  | userFindById (id : Text)

abbrev GateQuery.Answer : GateQuery → Type
  | .userFindById _ => Option Account

abbrev gateInterface : Interface where
  Action := GateAction
  Reply := GateAction.Reply
  Query := GateQuery
  Answer := GateQuery.Answer

/-- A program that takes a token. -/
abbrev Gate (α : Type) := Program gateInterface Failure α

namespace Gate

abbrev perform (a : GateAction) : Gate a.Reply := Program.perform (I := gateInterface) a

abbrev query (q : GateQuery) : Gate q.Answer := Program.query (I := gateInterface) q

end Gate

/-- Whether JavaScript takes a value for true. -/
def truthy : Value → Bool
  | .undefined => false
  | .null => false
  | .boolean b => b
  | .number n => n != 0
  | .string s => !s.isEmpty
  | _ => true

/-- `authHeader.startsWith('Bearer ')` -/
def startsWithBearer (authHeader : Text) : Bool := "Bearer ".toList.isPrefixOf authHeader

/-- `authHeader.split(' ')[1]` -/
def secondWord (authHeader : Text) : Value :=
  match (authHeader.splitOn ' ')[1]? with
  | some word => .string word
  | none => .undefined

section
variable (L : Library)

/-- `src/utils/jwt.ts`: `none` where it throws. It throws on what is no text; both callers
catch it. -/
def verifyToken (token : Value) : Gate (Option JwtPayload) := do
  let now ← Gate.perform .now
  match token with
  | .string token => pure (L.verify token now)
  | _ => pure none

def authMiddleware (authorization : Option Text) : Gate JwtPayload :=
  match authorization with
  | none => throw (.app "Authentication required: missing or malformed Authorization header" 401)
  | some authHeader =>
    if !startsWithBearer authHeader then
      throw (.app "Authentication required: missing or malformed Authorization header" 401)
    else do
      match ← verifyToken L (secondWord authHeader) with
      | some payload => pure payload
      | none => throw (.app "Authentication failed: invalid or expired token" 401)

/-- `socket.handshake.auth?.token`, or the token of the header -/
def handshakeToken (auth : Value) (authorization : Option Text) : Value :=
  if truthy (auth.get "token") then auth.get "token"
  else match authorization with
    | some authHeader => if startsWithBearer authHeader then secondWord authHeader else .undefined
    | none => .undefined

/-- `next()` with `socket.data.user`, or `next(new Error(message))` -/
def socketAuthMiddleware (auth : Value) (authorization : Option Text) :
    Gate (Except String JwtPayload) :=
  let token := handshakeToken auth authorization
  if !truthy token then pure (.error "Authentication required: missing token in handshake")
  else do
    match ← verifyToken L token with
    | some payload => pure (.ok payload)
    | none => pure (.error "Authentication failed: invalid or expired token")

/-- `src/services/auth.service.ts` -/
def getProfile (userId : Text) : Gate Account := do
  match ← Gate.query (.userFindById userId) with
  | none => throw (.app "User not found" 404)
  | some user => pure user

inductive GateResult where
  /-- The user as `toJSON` prints it, without `passwordHash`. -/
  | profile (user : User)
  | handshake (response : Except String JwtPayload)

/-- `src/controllers/auth.controller.ts`, on `req.user` -/
def meHandler (user : Option JwtPayload) : Gate GateResult :=
  match user with
  | none => throw (.app "Authentication required" 401)
  | some user => do
    let user ← getProfile user.userId
    pure (.profile user.toUser)

inductive GateCall where
  /-- `GET /api/auth/me` -/
  | me (authorization : Option Text)
  /-- A socket that wants to connect. -/
  | handshake (auth : Value) (authorization : Option Text)

def GateCall.body : GateCall → Gate GateResult
  | .me authorization => do
    let user ← authMiddleware L authorization
    meHandler (some user)
  | .handshake auth authorization => .handshake <$> socketAuthMiddleware L auth authorization

end

/-! ### The service -/

def AuthServer.gateAct (a : GateAction) (s : AuthServer) : a.Reply × AuthServer :=
  match a with
  | .now => (s.clock, s)

/-- An id is unique: there is one document to find, or none. -/
def AuthServer.gateAnswer (q : GateQuery) (s : AuthServer) : Except Failure q.Answer × AuthServer :=
  match q with
  | .userFindById id =>
    match ObjectId.cast id with
    | some id => (.ok (s.accounts.docs.find? fun user => user.id == id), s)
    | none => (.error .castError, s)

/-- The requests that show a token, as a system of their own. -/
def gate (L : Library) : System gateInterface AuthServer Failure GateCall GateResult where
  act := AuthServer.gateAct
  answer := AuthServer.gateAnswer
  fallible _ := true
  fault := .queryFailed
  accept _ s := some s
  body := GateCall.body L
  pass n s := {s with clock := s.clock + n}

abbrev SessionCall := AuthCall ⊕ GateCall

abbrev SessionConfig := Config (authInterface.beside gateInterface) AuthServer Failure SessionCall
  (AuthResult ⊕ GateResult)

/-- Tokens, from their issue to their use. -/
def sessions (L : Library) : System (authInterface.beside gateInterface) AuthServer Failure
    SessionCall (AuthResult ⊕ GateResult) :=
  (auth L).beside (gate L)

theorem gate_reads (L : Library) : (gate L).ReadOnly where
  act a s := by
    cases a
    rfl
  answer q s := by
    cases q with
    | userFindById id =>
      simp only [gate, AuthServer.gateAnswer]
      split <;> rfl
  accept _ _ := rfl

end RealtimeChat
