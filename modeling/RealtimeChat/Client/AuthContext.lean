import RealtimeChat.Client.UseConversations

/-! The session of a browser tab (`frontend-ui/src/context/AuthContext.tsx`,
`frontend-ui/src/lib/socket.ts`, and `frontend-ui/src/App.tsx`, which decides what is shown).

The provider keeps the user and the token, the socket module keeps a connection, and the
token is also kept where it outlives the page. These change one by one, as requests
settle and buttons are pressed; what is shown at any time is in keeping with all of
them (`coherent_run`). -/
namespace RealtimeChat
open Data (Text)

/-- `io(SOCKET_URL, { auth: { token } })` -/
structure Connection where
  id : Nat
  token : Text
deriving DecidableEq

/-- A `restoreSession` that awaits `getMe(currentToken)`. -/
structure Restoring where
  token : Text
  cancelled : Bool

structure Tab where
  /-- `localStorage['chat_token']`, which all tabs share -/
  stored : Option Text
  token : Option Text
  user : Option ClientUser
  loading : Bool
  error : Option Text
  restoring : List Restoring
  /-- How many logins and signups await their responses. -/
  submitted : Nat
  /-- `let socket: Socket | null` of `lib/socket.ts` -/
  socket : Option Connection
  /-- The connections that have been made and not been disconnected. -/
  live : List Connection
  nextConnection : Nat

/-- What `AppShell` shows. -/
inductive Screen where
  | loading
  | auth
  | chat
deriving DecidableEq

inductive TabMove where
  /-- The page is loaded again. In development an effect is run, cleaned up and run again. -/
  | load (strict : Bool)
  /-- A `getMe` settles: with a user, or with the message of what it throws. -/
  | restored (i : Nat) (response : Except Text ClientUser)
  /-- The form of `AuthPage` is sent. -/
  | submit
  /-- A login or a signup settles. -/
  | answered (response : Except Text (ClientUser × Text))
  | logout
  /-- Another tab writes to what all share. -/
  | elsewhere (stored : Option Text)

namespace Tab

def screen (t : Tab) : Screen :=
  if t.loading then .loading else if t.user.isSome then .chat else .auth

/-! ### `lib/socket.ts` -/

/-- `socket.disconnect()`, if there is one -/
def disconnect (t : Tab) : Tab :=
  match t.socket with
  | some socket => {t with live := t.live.filter (· != socket)}
  | none => t

def connectSocket (token : Text) (t : Tab) : Tab :=
  let t := t.disconnect
  let socket : Connection := ⟨t.nextConnection, token⟩
  {t with socket := some socket, live := t.live ++ [socket], nextConnection := t.nextConnection + 1}

def disconnectSocket (t : Tab) : Tab := {t.disconnect with socket := none}

/-! ### `AuthProvider` -/

/-- Up to its `await`. An empty token counts as none. -/
def restoreSession (currentToken : Option Text) (t : Tab) : Tab :=
  match currentToken with
  | some (c :: rest) => {t with restoring := t.restoring ++ [⟨c :: rest, false⟩]}
  | _ => {t with loading := false}

/-- The cleanup of the effect. -/
def cleanup (t : Tab) : Tab :=
  {t with restoring := t.restoring.map fun r => {r with cancelled := true}}

/-- The first render of a page. The connections of the last page have gone with it. -/
def render (t : Tab) : Tab where
  stored := t.stored
  token := t.stored
  user := none
  loading := true
  error := none
  restoring := []
  submitted := 0
  socket := none
  live := []
  nextConnection := t.nextConnection

def load (strict : Bool) (t : Tab) : Tab :=
  let mounted := restoreSession t.stored t.render
  if strict then restoreSession t.stored mounted.cleanup else mounted

def restored (i : Nat) (response : Except Text ClientUser) (t : Tab) : Tab :=
  match t.restoring[i]? with
  | none => t
  | some r =>
    let t := {t with restoring := t.restoring.eraseIdx i}
    if r.cancelled then t
    else match response with
      | .ok me => {connectSocket r.token {t with user := some me} with loading := false}
      | .error _ => {t with stored := none, token := none, user := none, loading := false}

def persistSession (newToken : Text) (newUser : ClientUser) (t : Tab) : Tab :=
  connectSocket newToken {t with stored := some newToken, token := some newToken, user := some newUser}

/-- `login` and `signup`, up to their `await`. -/
def submit (t : Tab) : Tab := {t with error := none, submitted := t.submitted + 1}

def answered (response : Except Text (ClientUser × Text)) (t : Tab) : Tab :=
  if t.submitted = 0 then t
  else
    let t := {t with submitted := t.submitted - 1}
    match response with
    | .ok (user, token) => persistSession token user t
    | .error message => {t with error := some message}

def logout (t : Tab) : Tab := {disconnectSocket {t with stored := none} with token := none, user := none}

/-- The form is on one screen, and the button on another. -/
def step (t : Tab) : TabMove → Tab
  | .load strict => t.load strict
  | .restored i response => t.restored i response
  | .submit => if t.screen = .auth then t.submit else t
  | .answered response => t.answered response
  | .logout => if t.screen = .chat then t.logout else t
  | .elsewhere stored => {t with stored}

/-- A tab that is opened, with what other tabs may have left behind. -/
def opened (stored : Option Text) (strict : Bool) : Tab :=
  load strict ⟨stored, none, none, true, none, [], 0, none, [], 0⟩

def run (t : Tab) (moves : List TabMove) : Tab := moves.foldl step t

end Tab

/-! ### What goes together -/

/-- The tab holds no token, or one that counts as none. -/
def Tab.tokenless (t : Tab) : Prop := t.token = none ∨ t.token = some []

structure Coherent (t : Tab) : Prop where
  /-- No connection is live but the one that the tab uses. -/
  single : t.live = t.socket.toList
  /-- A user is shown with a token and a connection of the same. -/
  chat : ∀ user, t.user = some user → t.loading = false ∧
    ∃ token, t.token = some token ∧ t.socket.map Connection.token = some token
  away : t.user = none → t.socket = none ∧ (t.loading = false → t.tokenless)
  /-- While the page loads, the token that it has is being looked up, and nothing else. -/
  loading : t.loading = true → t.submitted = 0 ∧ ∃ token, t.token = some token ∧
    t.restoring.filter (fun r => !r.cancelled) = [⟨token, false⟩]
  settled : t.loading = false → ∀ r ∈ t.restoring, r.cancelled = true

/-! ### One move at a time -/

section
variable {t : Tab}

theorem Tab.disconnect_eq (h : t.live = t.socket.toList) : t.disconnect = {t with live := []} := by
  obtain ⟨stored, token, user, loading, error, restoring, submitted, socket, live, nextConnection⟩ := t
  obtain rfl : live = socket.toList := h
  cases socket <;> simp [disconnect]

theorem Tab.connectSocket_eq (h : t.live = t.socket.toList) (token : Text) : t.connectSocket token =
    {t with
      socket := some ⟨t.nextConnection, token⟩
      live := [⟨t.nextConnection, token⟩]
      nextConnection := t.nextConnection + 1} := by
  rw [connectSocket, disconnect_eq h]
  rfl

theorem Tab.disconnectSocket_eq (h : t.live = t.socket.toList) :
    t.disconnectSocket = {t with socket := none, live := []} := by
  rw [disconnectSocket, disconnect_eq h]

theorem Tab.load_tokenless (h : t.stored = none ∨ t.stored = some []) (strict : Bool) :
    t.load strict = {t.render with loading := false} := by
  rcases h with h | h <;> cases strict <;> simp [load, restoreSession, cleanup, render, h]

theorem Tab.load_token {c : Char} {rest : Text} (h : t.stored = some (c :: rest)) (strict : Bool) :
    t.load strict = {t.render with
      restoring := (if strict then [⟨c :: rest, true⟩] else []) ++ [⟨c :: rest, false⟩]} := by
  cases strict <;> simp [load, restoreSession, cleanup, render, h]

theorem coherent_load (strict : Bool) (t : Tab) : Coherent (t.load strict) := by
  by_cases hnone : t.stored = none ∨ t.stored = some []
  · rw [Tab.load_tokenless hnone]
    refine ⟨rfl, fun user h => ?_, fun _ => ⟨rfl, fun _ => hnone⟩, fun h => ?_, fun _ r hr => ?_⟩
    · cases h
    · cases h
    · cases hr
  · obtain ⟨c, rest, hstored⟩ : ∃ c rest, t.stored = some (c :: rest) := by
      rcases hstored : t.stored with _ | _ | ⟨c, rest⟩
      · exact absurd (.inl hstored) hnone
      · exact absurd (.inr hstored) hnone
      · exact ⟨c, rest, rfl⟩
    rw [Tab.load_token hstored]
    refine ⟨rfl, fun user h => ?_, fun _ => ⟨rfl, fun h => ?_⟩, fun _ => ⟨rfl, _, hstored, ?_⟩, fun h => ?_⟩
    · cases h
    · cases h
    · cases strict <;> rfl
    · cases h

/-- What is left once one has settled. -/
theorem filter_eraseIdx_perm {α : Type} {l : List α} {i : Nat} {a : α} (h : l[i]? = some a)
    (p : α → Bool) : ((a :: l.eraseIdx i).filter p).Perm (l.filter p) := by
  obtain ⟨hlt, rfl⟩ := List.getElem?_eq_some_iff.mp h
  exact (List.getElem_cons_eraseIdx_perm hlt).filter p

/-- The lookup of the page's own effect, while the page loads. -/
theorem Coherent.restoring (h : Coherent t) {i : Nat} {r : Restoring} (hr : t.restoring[i]? = some r)
    (hcancelled : r.cancelled = false) : t.loading = true ∧ t.token = some r.token ∧
      ∀ other ∈ t.restoring.eraseIdx i, other.cancelled = true := by
  have hloading : t.loading = true := by
    by_contra hnot
    have := h.settled (Bool.eq_false_iff.mpr hnot) r (List.mem_of_getElem? hr)
    rw [hcancelled] at this
    cases this
  obtain ⟨-, token, htoken, honly⟩ := h.loading hloading
  have hperm := filter_eraseIdx_perm hr fun r => !r.cancelled
  rw [honly, List.filter_cons_of_pos (by simp [hcancelled]), List.perm_singleton, List.cons.injEq] at hperm
  obtain ⟨rfl, hrest⟩ := hperm
  refine ⟨hloading, htoken, fun other hother => ?_⟩
  simpa using List.filter_eq_nil_iff.mp hrest other hother

theorem coherent_restored (h : Coherent t) (i : Nat) (response : Except Text ClientUser) :
    Coherent (t.restored i response) := by
  unfold Tab.restored
  cases hr : t.restoring[i]? with
  | none => exact h
  | some r =>
    by_cases hcancelled : r.cancelled = true
    · simp only [hcancelled, if_true]
      refine ⟨h.single, h.chat, h.away, fun hloading => ?_, fun hloading other hother =>
        h.settled hloading other (List.mem_of_mem_eraseIdx hother)⟩
      obtain ⟨hsubmitted, token, htoken, honly⟩ := h.loading hloading
      have hperm := filter_eraseIdx_perm hr fun r => !r.cancelled
      rw [honly, List.filter_cons_of_neg (by simp [hcancelled]), List.perm_singleton] at hperm
      exact ⟨hsubmitted, token, htoken, hperm⟩
    · obtain ⟨hloading, htoken, hrest⟩ := h.restoring hr (Bool.eq_false_iff.mpr hcancelled)
      simp only [hcancelled, Bool.false_eq_true, if_false]
      cases response with
      | error message =>
        have huser : t.user = none := by
          cases huser : t.user with
          | none => rfl
          | some user =>
            obtain ⟨hnot, -⟩ := h.chat user huser
            rw [hloading] at hnot
            cases hnot
        refine ⟨h.single, fun user hu => ?_, fun _ => ⟨(h.away huser).1, fun _ => .inl rfl⟩, fun hl => ?_,
          fun _ => hrest⟩
        · cases hu
        · cases hl
      | ok me =>
        simp only [Tab.connectSocket_eq (t := {t with
          restoring := t.restoring.eraseIdx i, user := some me}) h.single]
        refine ⟨rfl, fun user hu => ⟨rfl, r.token, htoken, rfl⟩, fun hu => ?_, fun hl => ?_, fun _ => hrest⟩
        · cases hu
        · cases hl

theorem coherent_answered (h : Coherent t) (response : Except Text (ClientUser × Text)) :
    Coherent (t.answered response) := by
  unfold Tab.answered
  by_cases hsubmitted : t.submitted = 0
  · rw [if_pos hsubmitted]
    exact h
  · rw [if_neg hsubmitted]
    have hloading : t.loading = false := by
      refine Bool.eq_false_iff.mpr fun hl => hsubmitted (h.loading hl).1
    rcases response with message | ⟨user, token⟩
    · refine ⟨h.single, h.chat, h.away, fun hl => ?_, h.settled⟩
      cases hloading.symm.trans hl
    · simp only [Tab.persistSession]
      rw [Tab.connectSocket_eq (t := {t with
        submitted := t.submitted - 1, stored := some token, token := some token, user := some user}) h.single]
      refine ⟨rfl, fun user _ => ⟨hloading, token, rfl, rfl⟩, fun hu => ?_, fun hl => ?_, h.settled⟩
      · cases hu
      · cases hloading.symm.trans hl

theorem Tab.screen_eq_auth : t.screen = .auth ↔ t.loading = false ∧ t.user = none := by
  unfold screen
  cases t.loading <;> cases t.user <;> simp

theorem Tab.screen_eq_chat : t.screen = .chat ↔ t.loading = false ∧ ∃ user, t.user = some user := by
  unfold screen
  cases t.loading <;> cases t.user <;> simp

theorem coherent_submit (h : Coherent t) (hscreen : t.screen = .auth) : Coherent t.submit := by
  obtain ⟨hloading, -⟩ := Tab.screen_eq_auth.mp hscreen
  refine ⟨h.single, h.chat, h.away, fun hl => ?_, h.settled⟩
  cases hloading.symm.trans hl

theorem coherent_logout (h : Coherent t) (hscreen : t.screen = .chat) : Coherent t.logout := by
  obtain ⟨hloading, -⟩ := Tab.screen_eq_chat.mp hscreen
  rw [Tab.logout, Tab.disconnectSocket_eq (t := {t with stored := none}) h.single]
  refine ⟨rfl, fun user hu => ?_, fun _ => ⟨rfl, fun _ => .inl rfl⟩, fun hl => ?_, h.settled⟩
  · cases hu
  · cases hloading.symm.trans hl

theorem coherent_step (h : Coherent t) (m : TabMove) : Coherent (t.step m) := by
  cases m with
  | load strict => exact coherent_load strict t
  | restored i response => exact coherent_restored h i response
  | submit =>
    show Coherent (if t.screen = .auth then t.submit else t)
    split
    · exact coherent_submit h ‹_›
    · exact h
  | answered response => exact coherent_answered h response
  | logout =>
    show Coherent (if t.screen = .chat then t.logout else t)
    split
    · exact coherent_logout h ‹_›
    · exact h
  | elsewhere stored => exact ⟨h.single, h.chat, h.away, h.loading, h.settled⟩

end

/-- **What a tab shows is in keeping with what it holds**, whatever is pressed, in whatever order
requests settle, and whatever other tabs write: there is never more than one connection; a user is
shown exactly with a token and a connection of that token, and without a user there is neither. -/
theorem coherent_run (stored : Option Text) (strict : Bool) (moves : List TabMove) :
    Coherent ((Tab.opened stored strict).run moves) := by
  have hrun : ∀ t, Coherent t → Coherent (t.run moves) := by
    induction moves with
    | nil => exact fun t h => h
    | cons m rest ih => exact fun t h => ih (t.step m) (coherent_step h m)
  exact hrun _ (coherent_load strict _)

/-! ### What outlives the page -/

section
variable {t : Tab}

@[simp] theorem Tab.disconnect_stored : t.disconnect.stored = t.stored := by
  unfold disconnect
  split <;> rfl

@[simp] theorem Tab.disconnect_token : t.disconnect.token = t.token := by
  unfold disconnect
  split <;> rfl

theorem Tab.restoreSession_kept (currentToken : Option Text) :
    (t.restoreSession currentToken).stored = t.stored ∧ (t.restoreSession currentToken).token = t.token ∧
      (t.restoreSession currentToken).user = t.user := by
  unfold restoreSession
  split <;> exact ⟨rfl, rfl, rfl⟩

/-- A page starts from what outlived the last one, with nobody signed in. -/
theorem Tab.load_kept (strict : Bool) : (t.load strict).stored = t.stored ∧
    (t.load strict).token = t.stored ∧ (t.load strict).user = none := by
  obtain ⟨hstored, htoken, huser⟩ := @restoreSession_kept t.render t.stored
  cases strict with
  | false => exact ⟨hstored, htoken, huser⟩
  | true =>
    obtain ⟨hstored', htoken', huser'⟩ :=
      @restoreSession_kept (restoreSession t.stored t.render).cleanup t.stored
    exact ⟨hstored'.trans hstored, htoken'.trans htoken, huser'.trans huser⟩

theorem stored_step (h : t.stored = t.token) {m : TabMove} (hown : ∀ stored, m ≠ .elsewhere stored) :
    (t.step m).stored = (t.step m).token := by
  cases m with
  | load strict =>
    obtain ⟨hstored, htoken, -⟩ := @Tab.load_kept t strict
    exact hstored.trans htoken.symm
  | restored i response =>
    show (t.restored i response).stored = (t.restored i response).token
    unfold Tab.restored
    cases t.restoring[i]? with
    | none => exact h
    | some r =>
      dsimp only
      split
      · exact h
      · cases response with
        | error message => rfl
        | ok me => simpa [Tab.connectSocket] using h
  | submit =>
    show (if t.screen = .auth then t.submit else t).stored = (if t.screen = .auth then t.submit else t).token
    split <;> exact h
  | answered response =>
    show (t.answered response).stored = (t.answered response).token
    unfold Tab.answered
    split
    · exact h
    · rcases response with message | ⟨user, token⟩
      · exact h
      · simp [Tab.persistSession, Tab.connectSocket]
  | logout =>
    show (if t.screen = .chat then t.logout else t).stored = (if t.screen = .chat then t.logout else t).token
    split
    · simp [Tab.logout, Tab.disconnectSocket]
    · exact h
  | elsewhere stored => exact absurd rfl (hown stored)

end

/-- **Reloading loses nothing and brings nothing back**: until another tab writes, the token that
outlives the page is the one that the page holds. -/
theorem stored_run (stored : Option Text) (strict : Bool) (moves : List TabMove)
    (hown : ∀ stored, .elsewhere stored ∉ moves) :
    ((Tab.opened stored strict).run moves).stored = ((Tab.opened stored strict).run moves).token := by
  have hrun : ∀ t : Tab, t.stored = t.token → (t.run moves).stored = (t.run moves).token := by
    induction moves with
    | nil => exact fun t h => h
    | cons m rest ih =>
      refine fun t h => ih (fun stored hmem => hown stored (.tail _ hmem)) (t.step m) (stored_step h ?_)
      exact fun stored heq => hown stored (heq ▸ .head _)
  obtain ⟨hstored, htoken, -⟩ := @Tab.load_kept ⟨stored, none, none, true, none, [], 0, none, [], 0⟩ strict
  exact hrun _ (hstored.trans htoken.symm)

end RealtimeChat
