import RealtimeChat.Model.Accounts

/-! `src/services/auth.service.ts`, and the schemas of what it is given
(`src/validators/auth.validator.ts`). -/
namespace RealtimeChat
open Data (Text utf16Length)
open Zod (Value Schema)

section
variable (L : Library)

def username : Schema Text :=
  (Schema.string.trimmed.refine (fun s => 3 ≤ utf16Length s)
    "String must contain at least 3 character(s)").refine (fun s => utf16Length s ≤ 30)
    "String must contain at most 30 character(s)"

def email : Schema Text := Schema.string.trimmed.refine L.isEmail "Invalid email"

structure SignupInput where
  username : Text
  email : Text
  password : Text

def signupPassword : Schema Text :=
  (Schema.string.refine (fun s => 6 ≤ utf16Length s)
    "String must contain at least 6 character(s)").refine (fun s => utf16Length s ≤ 72)
    "String must contain at most 72 character(s)"

def signupSchema : Schema SignupInput :=
  Schema.object fun v => ((Schema.field "username" username v).both
    ((Schema.field "email" (email L) v).both (Schema.field "password" signupPassword v))).map
      fun (username, email, password) => ⟨username, email, password⟩

structure LoginInput where
  email : Text
  password : Text

def loginPassword : Schema Text :=
  Schema.string.refine (fun s => 1 ≤ utf16Length s) "String must contain at least 1 character(s)"

def loginSchema : Schema LoginInput :=
  Schema.object fun v => ((Schema.field "email" (email L) v).both
    (Schema.field "password" loginPassword v)).map fun (email, password) => ⟨email, password⟩

structure AuthResult where
  user : Account
  token : Text

/-- `src/utils/jwt.ts` -/
def signToken (payload : JwtPayload) : Auth Text := do
  let now ← Auth.perform .now
  pure (L.sign payload now)

/-- `id` is the `_id` of the new document, and `salt` what bcrypt draws. -/
def signup (id : ObjectId) (salt : Text) (input : SignupInput) : Auth AuthResult := do
  match ← Auth.query (.userFindConflict input.email input.username) with
  | some existing =>
    let conflictField := if existing.email = input.email then "email" else "username"
    throw (.app ("An account with this " ++ conflictField ++ " already exists") 409)
  | none =>
    let passwordHash ← Auth.query (.bcryptHash input.password salt)
    let now ← Auth.perform .now
    let user ← Auth.query (.userCreate id input.username input.email passwordHash now)
    let token ← signToken L user.toPayload
    pure ⟨user, token⟩

def comparePassword (user : Account) (candidate : Text) : Auth Bool :=
  Auth.query (.bcryptCompare candidate user.passwordHash)

def login (input : LoginInput) : Auth AuthResult := do
  match ← Auth.query (.userFindByEmail input.email) with
  | none => throw (.app "Invalid email or password" 401)
  | some user =>
    if !(← comparePassword user input.password) then
      throw (.app "Invalid email or password" 401)
    else
      let token ← signToken L user.toPayload
      pure ⟨user, token⟩

end

end RealtimeChat
