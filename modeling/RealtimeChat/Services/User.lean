import Mathlib.Data.Char
import RealtimeChat.Data.Listing
import RealtimeChat.Data.Regex
import RealtimeChat.Model.Accounts

/-! `src/services/user.service.ts`, with the schema of what it is given
(`src/validators/user.validator.ts`) and the handler (`src/controllers/user.controller.ts`).

The regular expressions are MongoDB's. What is known of them is their usual meaning, for those
that are built as in `Data.Regex`. -/
namespace RealtimeChat
open Data (Text trim utf16Length Regex)
open Zod (Value Schema)

/-- `$regex`, with option `i` -/
structure RegexEngine where
  /-- Characters that differ only in case are mapped to one. -/
  fold : Char → Char
  fold_ascii : ∀ c, c.toNat < 128 → fold c = c.toLower
  /-- What an expression matches, if it is one. -/
  compile : Text → Option (Text → Bool)
  /-- Of an expression as long as a search may be. -/
  usual : ∀ r : Regex .choice, utf16Length r.print ≤ 50 →
    ∃ matching, compile r.print = some matching ∧ ∀ text, matching text = true ↔ r.Occurs fold text

structure ListUsersQuery where
  search : Option Text
  limit : Int

def usersSearch : Schema (Option Text) :=
  ((Schema.string.trimmed.refine (fun s => 1 ≤ utf16Length s)
    "String must contain at least 1 character(s)").refine (fun s => utf16Length s ≤ 50)
    "String must contain at most 50 character(s)").optional

/-- `z.coerce.number().int()`, of what has been coerced: an integer, or no number. -/
def coercedInteger : Schema Int
  | .number n => ⟨some n, []⟩
  | _ => ⟨none, [⟨[], "Expected number, received nan"⟩]⟩

def usersLimit : Schema Int :=
  ((coercedInteger.refine (fun n => 1 ≤ n) "Number must be greater than or equal to 1").refine
    (fun n => n ≤ 50) "Number must be less than or equal to 50").orDefault (.number 20)

def listUsersQuerySchema : Schema ListUsersQuery :=
  Schema.object fun v => ((Schema.field "search" usersSearch v).both (Schema.field "limit" usersLimit v)).map
    fun (search, limit) => ⟨search, limit⟩

section
variable (E : RegexEngine)

/-- `filter.username`, if the search is not empty. The database refuses what is no expression. -/
def usernameFilter : Option Text → Except Failure (Account → Bool)
  | some (c :: rest) =>
    match E.compile (c :: rest) with
    | some matching => .ok fun user => matching user.username
    | none => .error .queryFailed
  | _ => .ok fun _ => true

/-- `.sort({ username: 1 })` -/
def byUsername (users : List Account) : List Account :=
  users.insertionSort fun a b => a.username ≤ b.username

def listUsers (currentUserId : Text) (search : Option Text) (limit : Nat) (s : AuthServer) :
    Except Failure (List User) := do
  match ObjectId.cast currentUserId with
  | none => throw .castError
  | some id =>
    let matching ← usernameFilter E search
    let found := s.accounts.docs.filter fun user => user.id != id && matching user
    pure (((byUsername found).take limit).map Account.toUser)

def listUsersHandler (user : Option JwtPayload) (query : ListUsersQuery) (s : AuthServer) :
    Except Failure (List User) :=
  match user with
  | none => throw (.app "Authentication required" 401)
  | some user => listUsers E user.userId query.search query.limit.toNat s

end

end RealtimeChat
