import RealtimeChat.Handlers.Socket
import RealtimeChat.Services.Auth

/-! The authentication requests (`src/routes/auth.routes.ts`,
`src/controllers/auth.controller.ts`), and the service as a system of them.

Which requests are turned away is up to `express-rate-limit`: each request comes with what is
made of it, and nothing is supposed of that. -/
namespace RealtimeChat
open Data (Text)
open Zod (Value)

inductive AuthCall where
  /-- `POST /api/auth/signup`. `id` and `salt` are those of the user, should one be created. -/
  | signup (limited : Bool) (body : Value) (id : ObjectId) (salt : Text)
  /-- `POST /api/auth/login` -/
  | login (limited : Bool) (body : Value)

/-- Whether too many requests have come from where this one comes from. -/
def AuthCall.limited : AuthCall → Bool
  | .signup limited _ _ _ => limited
  | .login limited _ => limited

section
variable (L : Library)

/-- `src/middlewares/rateLimiter.middleware.ts`, and what comes after it. -/
def authRateLimiter {α : Type} (limited : Bool) (next : Auth α) : Auth α :=
  if limited then throw (.app "Too many requests from this IP, please try again later." 429) else next

/-- `validate(schema)`, and the handler on what it has read. -/
def validated {α β : Type} (schema : Zod.Schema α) (body : Value) (handler : α → Auth β) : Auth β :=
  match schema.parse body with
  | .error errors => throw (.app ("Validation error: " ++ issuesWithPath errors) 400)
  | .ok input => handler input

def AuthCall.body : AuthCall → Auth AuthResult
  | .signup limited body id salt =>
    authRateLimiter limited (validated (signupSchema L) body (RealtimeChat.signup L id salt))
  | .login limited body => authRateLimiter limited (validated (loginSchema L) body (RealtimeChat.login L))

/-- The authentication service as a system. -/
def auth : Async.System authInterface AuthServer Failure AuthCall AuthResult where
  act := AuthServer.act
  answer := AuthServer.answer L
  fallible := AuthQuery.fallible
  fault := .queryFailed
  accept _ s := some s
  body := AuthCall.body L
  pass n s := {s with clock := s.clock + n}

end

/-- What has happened in the service, latest first. -/
abbrev AuthLog := List (Async.Event authInterface Failure AuthCall)

end RealtimeChat
