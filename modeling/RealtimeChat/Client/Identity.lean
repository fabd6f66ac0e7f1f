import RealtimeChat.Accounts.Sessions
import RealtimeChat.Client.AuthContext

/-! A tab and the server it talks to.

The tab shows a user, and sends a token with everything it does; the server goes by the
token. That the two mean the same person rests on where the tab has its user from: with
the token itself, or as the answer to it (`acts_as_shown`). A page that is loaded again
finds the same user, as long as the token lasts (`reload_keeps`). -/
namespace RealtimeChat
open Data (Text)
open Zod (Value)
open Async Async.System

/-- `` `Bearer ${token}` `` -/
def bearerHeader (token : Text) : Text := "Bearer ".toList ++ token

/-- The requests in which a tab shows its token. All other REST requests come by the middleware
of `GET /api/auth/me`. -/
def Tab.Asks (t : Tab) (call : GateCall) : Prop :=
  (∃ token, t.token = some token ∧ call = .me (some (bearerHeader token))) ∨
  ∃ socket, t.socket = some socket ∧ call = .handshake (.object [("token", .string socket.token)]) none

/-- Whom the tab shows. -/
def ClientUser.toPayload (user : ClientUser) : JwtPayload := ⟨user.id.toString, user.username, user.email⟩

/-- What a tab is answered with has been sent by the server, to the request it has made. -/
def Responded (c : SessionConfig) (t : Tab) : TabMove → Prop
  | .restored i (.ok user) => ∀ r, t.restoring[i]? = some r → ∃ (pid : Nat) (profile : User),
    c.tasks[pid]? = some ⟨.inr (.me (some (bearerHeader r.token))), .done (.ok (.inr (.profile profile)))⟩ ∧
    user = profile.toJSON
  | .answered (.ok (user, token)) => ∃ (pid : Nat) (call : AuthCall) (account : Account),
    c.tasks[pid]? = some ⟨.inl call, .done (.ok (.inl ⟨account, token⟩))⟩ ∧ user = account.toUser.toJSON
  | _ => True

/-- A tab that has been opened at some time, and a server that goes on serving all. -/
inductive Joint (L : Library) (clock : Nat) : List (Move SessionCall) → Tab → Prop where
  | opened (moves : List (Move SessionCall)) (stored : Option Text) (strict : Bool) :
    Joint L clock moves (.opened stored strict)
  | server {moves : List (Move SessionCall)} {t : Tab} (h : Joint L clock moves t) (m : Move SessionCall) :
    Joint L clock (moves ++ [m]) t
  | tab {moves : List (Move SessionCall)} {t : Tab} (h : Joint L clock moves t) {m : TabMove}
    (hserved : Responded (sessionRun L clock moves) t m) : Joint L clock moves (t.step m)

/-- The user that is shown is the one whom the token names. -/
def Identified (L : Library) (t : Tab) : Prop :=
  ∀ user, t.user = some user → ∃ token issued, t.token = some token ∧
    secondWord (bearerHeader token) = .string (L.sign user.toPayload issued)

section
variable {L : Library} {clock : Nat} {moves : List (Move SessionCall)} {t : Tab}

theorem Unforged.earlier {more : List (Move SessionCall)} (h : Unforged L clock (moves ++ more)) :
    Unforged L clock moves := by
  intro before call after token now hmoves
  exact h before call (after ++ more) token now (by rw [hmoves, List.append_assoc, List.cons_append])

theorem Joint.coherent (h : Joint L clock moves t) : Coherent t := by
  induction h with
  | opened moves stored strict => exact coherent_load strict _
  | server _ m ih => exact ih
  | tab _ _ ih => exact coherent_step ih _

/-- A header with a word: the word is what the server reads. -/
theorem secondWord_bearerHeader {token : Text} (h : ' ' ∉ token) :
    secondWord (bearerHeader token) = .string token := by
  have hheader : bearerHeader token = "Bearer".toList ++ ' ' :: token := rfl
  have hsplit : (bearerHeader token).splitOn ' ' = ["Bearer".toList, token] := by
    rw [hheader, List.splitOn_append_cons_self_of_not_mem (by decide), List.splitOn_eq_singleton h]
  rw [secondWord, hsplit]
  rfl

theorem token_me (token : Text) :
    GateCall.token (.me (some (bearerHeader token))) = secondWord (bearerHeader token) := by
  have hbearer : startsWithBearer (bearerHeader token) = true :=
    List.isPrefixOf_iff_prefix.mpr (List.prefix_append _ _)
  show (if startsWithBearer (bearerHeader token) then secondWord (bearerHeader token) else .undefined) = _
  rw [if_pos hbearer]

/-- A signature that lets in somebody lets in whom it was made for. -/
theorem Admits.payload_eq (htokens : Tokens L) {c : SessionConfig} {call : GateCall} {user : Account}
    (h : Admits L c call user) {payload : JwtPayload} {issued : Nat}
    (htoken : call.token = .string (L.sign payload issued)) : user.toPayload = payload := by
  obtain ⟨token, issued', htoken', -, rfl, hle, hlasts⟩ := h
  rw [htoken] at htoken'
  injection htoken' with hsame
  have hverify := L.verify_sign user.toPayload _ _ hle hlasts
  rw [← hsame] at hverify
  exact (htokens.verifies hverify).1

theorem identified_none (h : t.user = none) : Identified L t := by
  intro user huser
  cases h.symm.trans huser

theorem identified_same {t' : Tab} (h : Identified L t) (huser : t'.user = t.user)
    (htoken : t'.token = t.token) : Identified L t' := by
  intro user h'
  rw [htoken]
  exact h user (huser ▸ h')

/-- Who is restored is the user of the token that is looked up. -/
theorem identified_restored (htokens : Tokens L) (hunforged : Unforged L clock moves) (hc : Coherent t)
    (h : Identified L t) (i : Nat) (response : Except Text ClientUser)
    (hserved : Responded (sessionRun L clock moves) t (.restored i response)) :
    Identified L (t.restored i response) := by
  unfold Tab.restored
  cases hr : t.restoring[i]? with
  | none => exact h
  | some r =>
    by_cases hcancelled : r.cancelled = true
    · simp only [hcancelled, if_true]
      exact identified_same h rfl rfl
    · obtain ⟨-, htoken, -⟩ := hc.restoring hr (Bool.eq_false_iff.mpr hcancelled)
      simp only [hcancelled, Bool.false_eq_true, if_false]
      cases response with
      | error message => exact identified_none rfl
      | ok me =>
        obtain ⟨pid, profile, htask, rfl⟩ := hserved r hr
        obtain ⟨before, after, rfl, rfl⟩ := (sessions L).run_arrival htask
        have hread : readToken L _ _ = some profile.toJSON.toPayload :=
          (entered_iff_readToken htokens hunforged htask (by intro h; cases h)).mp ⟨_, rfl, rfl⟩
        obtain ⟨user, hpayload, token, issued, hshown, -, rfl, -⟩ := (readToken_iff htokens hunforged).mp hread
        rw [token_me] at hshown
        simp only [Tab.connectSocket_eq (t := {t with
          restoring := t.restoring.eraseIdx i, user := some profile.toJSON}) hc.single]
        intro shown hshow
        cases hshow
        exact ⟨r.token, issued, htoken, hpayload ▸ hshown⟩

/-- Who logs in or signs up is the user of the token that comes with the response. -/
theorem identified_answered (htokens : Tokens L) (hc : Coherent t) (h : Identified L t)
    (response : Except Text (ClientUser × Text))
    (hserved : Responded (sessionRun L clock moves) t (.answered response)) :
    Identified L (t.answered response) := by
  unfold Tab.answered
  split
  · exact h
  · rcases response with message | ⟨user, token⟩
    · exact identified_same h rfl rfl
    · obtain ⟨pid, call, account, htask, rfl⟩ := hserved
      obtain ⟨issued, -, rfl⟩ := Issued.signed ⟨pid, call, htask⟩
      simp only [Tab.persistSession]
      rw [Tab.connectSocket_eq (t := {t with
        submitted := t.submitted - 1, stored := some _, token := some _, user := some _}) hc.single]
      intro shown hshow
      cases hshow
      exact ⟨_, issued, rfl, secondWord_bearerHeader (htokens.word _ _)⟩

theorem identified_step (htokens : Tokens L) (hunforged : Unforged L clock moves) (hc : Coherent t)
    (h : Identified L t) {m : TabMove} (hserved : Responded (sessionRun L clock moves) t m) :
    Identified L (t.step m) := by
  cases m with
  | load strict => exact identified_none (Tab.load_kept strict).2.2
  | restored i response => exact identified_restored htokens hunforged hc h i response hserved
  | submit =>
    show Identified L (if t.screen = .auth then t.submit else t)
    split
    · exact identified_same h rfl rfl
    · exact h
  | answered response => exact identified_answered htokens hc h response hserved
  | logout =>
    show Identified L (if t.screen = .chat then t.logout else t)
    split
    · exact identified_none rfl
    · exact h
  | elsewhere stored => exact identified_same h rfl rfl

theorem Joint.identified (htokens : Tokens L) (h : Joint L clock moves t) (hunforged : Unforged L clock moves) :
    Identified L t := by
  induction h with
  | opened moves stored strict => exact identified_none (Tab.load_kept strict).2.2
  | server _ m ih => exact ih hunforged.earlier
  | tab hjoint hserved ih => exact identified_step htokens hunforged hjoint.coherent (ih hunforged) hserved

/-- What a page shows once the user of its token has been looked up. -/
theorem Coherent.restored_ok (hc : Coherent t) {i : Nat} {x : Restoring} (hx : t.restoring[i]? = some x)
    (hcancelled : x.cancelled = false) (me : ClientUser) :
    (t.restored i (.ok me)).screen = .chat ∧ (t.restored i (.ok me)).user = some me ∧
      (t.restored i (.ok me)).token = t.token ∧
      (t.restored i (.ok me)).socket.map Connection.token = t.token := by
  obtain ⟨-, htoken, -⟩ := hc.restoring hx hcancelled
  unfold Tab.restored
  simp only [hx, hcancelled, Bool.false_eq_true, if_false]
  rw [Tab.connectSocket_eq (t := {t with restoring := t.restoring.eraseIdx i, user := some me}) hc.single]
  exact ⟨rfl, rfl, rfl, htoken.symm⟩

/-- A token that has brought a user onto the screen is looked up by the next page. -/
theorem load_looks_up {token : Text} (hstored : t.stored = some token) (hword : token ≠ [])
    (strict : Bool) :
    (t.load strict).screen = .loading ∧
      (t.load strict).restoring.filter (fun x => !x.cancelled) = [⟨token, false⟩] := by
  cases token with
  | nil => exact absurd rfl hword
  | cons c rest =>
    rw [Tab.load_token hstored]
    cases strict <;> exact ⟨rfl, rfl⟩

end

/-- **Whoever is shown is who acts**: with a user on the screen, every request in which the tab
shows its token, be it over REST or in a handshake, gets in as that user, if it gets in. -/
theorem acts_as_shown (L : Library) (clock : Nat) (moves before after : List (Move SessionCall)) (t : Tab)
    (user : ClientUser) (call : GateCall) (v : AuthResult ⊕ GateResult) (payload : JwtPayload)
    (htokens : Tokens L) (hunforged : Unforged L clock moves) (hjoint : Joint L clock moves t)
    (huser : t.user = some user) (hasks : t.Asks call)
    (hmoves : moves = before ++ .arrive (.inr call) :: after)
    (htask : (sessionRun L clock moves).tasks[(sessionRun L clock before).tasks.length]? =
      some ⟨.inr call, .done (.ok v)⟩) (hentered : entered v = some payload) :
    payload = user.toPayload := by
  obtain ⟨token, issued, htoken, hword⟩ := hjoint.identified htokens hunforged user huser
  subst hmoves
  have hread := (entered_iff_readToken htokens hunforged htask (by intro h; cases h)).mp ⟨v, rfl, hentered⟩
  obtain ⟨account, rfl, hadmits⟩ := (readToken_iff htokens hunforged).mp hread
  refine hadmits.payload_eq htokens (?_ : call.token = .string (L.sign user.toPayload issued))
  rcases hasks with ⟨token', htoken', rfl⟩ | ⟨socket, hsocket, rfl⟩
  · cases htoken.symm.trans htoken'
    rw [token_me, hword]
  · obtain ⟨-, token', htoken', hsame⟩ := hjoint.coherent.chat user huser
    cases htoken.symm.trans htoken'
    rw [hsocket] at hsame
    obtain rfl : socket.token = token := Option.some.inj hsame
    have htruthy := truthy_of_admits htokens hadmits
    have hshown : GateCall.token (.handshake (.object [("token", .string socket.token)]) none) =
        .string socket.token := by
      show (if truthy (.string socket.token) = true then Value.string socket.token else .undefined) = _
      refine if_pos ?_
      by_contra hfalse
      rw [show GateCall.token (.handshake (.object [("token", .string socket.token)]) none) = .undefined
        from if_neg hfalse] at htruthy
      cases htruthy
    obtain ⟨word, issued', hword', -, hsigned, -⟩ := hadmits
    obtain rfl : socket.token = word := by
      rw [hshown] at hword'
      exact Value.string.inj hword'
    rw [hshown, ← hword, secondWord_bearerHeader (hsigned ▸ htokens.word _ _)]

/-- **A page that is loaded again finds its user**: the token is looked up, and as long as it lasts
the response is the same user, who is then shown with the same token and a connection of it. That
the lookup fails is left aside, and so is that another tab has written in between. -/
theorem reload_keeps (L : Library) (clock : Nat) (moves before after : List (Move SessionCall)) (t : Tab)
    (user : ClientUser) (token : Text) (strict : Bool) (r : Except Failure (AuthResult ⊕ GateResult))
    (htokens : Tokens L) (hunforged : Unforged L clock moves) (hjoint : Joint L clock before t)
    (huser : t.user = some user) (htoken : t.token = some token) (hstored : t.stored = t.token)
    (hmoves : moves = before ++ .arrive (.inr (.me (some (bearerHeader token)))) :: after)
    (htask : (sessionRun L clock moves).tasks[(sessionRun L clock before).tasks.length]? =
      some ⟨.inr (.me (some (bearerHeader token))), .done r⟩) (hanswered : r ≠ .error .queryFailed)
    (hlasts : readToken L (sessionRun L clock before).world.state.clock
      (GateCall.token (.me (some (bearerHeader token)))) ≠ none) :
    (t.load strict).screen = .loading ∧
      (t.load strict).restoring.filter (fun x => !x.cancelled) = [⟨token, false⟩] ∧
      ∃ profile, r = .ok (.inr (.profile profile)) ∧ profile.toJSON.toPayload = user.toPayload ∧
        ∀ (i : Nat) (x : Restoring), (t.load strict).restoring[i]? = some x → x.cancelled = false →
          ((t.load strict).restored i (.ok profile.toJSON)).screen = .chat ∧
          ((t.load strict).restored i (.ok profile.toJSON)).user = some profile.toJSON ∧
          ((t.load strict).restored i (.ok profile.toJSON)).token = some token ∧
          ((t.load strict).restored i (.ok profile.toJSON)).socket.map Connection.token = some token := by
  subst hmoves
  obtain ⟨token', issued, htoken', hword⟩ := hjoint.identified htokens hunforged.earlier user huser
  cases htoken.symm.trans htoken'
  have hnonempty : token ≠ [] := by
    rintro rfl
    exact htokens.nonempty _ _ (Value.string.inj hword).symm
  obtain ⟨hscreen, hrestoring⟩ := load_looks_up (hstored.trans htoken) hnonempty strict
  refine ⟨hscreen, hrestoring, ?_⟩
  obtain ⟨payload, hread⟩ := Option.ne_none_iff_exists'.mp hlasts
  obtain ⟨v, rfl, hentered⟩ := (entered_iff_readToken htokens hunforged htask hanswered).mpr hread
  obtain ⟨account, rfl, hadmits⟩ := (readToken_iff htokens hunforged).mp hread
  have hsame := hadmits.payload_eq htokens ((token_me token).trans hword)
  rw [hsame] at hentered
  obtain ⟨profile, rfl, hprofile⟩ : ∃ profile, v = .inr (.profile profile) ∧
      profile.toJSON.toPayload = user.toPayload := by
    obtain ⟨profile, rfl⟩ := me_result htask
    exact ⟨profile, rfl, Option.some.inj hentered⟩
  refine ⟨profile, rfl, hprofile, fun i x hx hcancelled => ?_⟩
  have hloaded := (coherent_load strict t).restored_ok hx hcancelled profile.toJSON
  rwa [(Tab.load_kept strict).2.1, hstored, htoken] at hloaded

/-- The tab, once its page has been loaded with the token of the signup. -/
def reloadedTab : Tab :=
  (Tab.opened (some sessionToken) false).step (.restored 0 (.ok sessionUser.toUser.toJSON))

theorem reloadedTab_joint : Joint wordLibrary 0 reloaded reloadedTab := by
  refine (Joint.opened reloaded (some sessionToken) false).tab fun r hr => ?_
  cases hr
  exact ⟨1, sessionUser.toUser, reloaded_task, rfl⟩

theorem acts_as_shown_reloaded : sessionUser.toPayload = sessionUser.toUser.toJSON.toPayload :=
  acts_as_shown wordLibrary 0 reloaded signedUp [.answer 1, .resume 1] reloadedTab
    sessionUser.toUser.toJSON profileCall _ sessionUser.toPayload wordLibrary_tokens reloaded_unforged
    reloadedTab_joint rfl (.inl ⟨sessionToken, rfl, rfl⟩) rfl reloaded_task rfl

/-- The tab in which the user has signed up. -/
def signedUpTab : Tab :=
  ((Tab.opened none false).step .submit).step (.answered (.ok (sessionUser.toUser.toJSON, sessionToken)))

theorem signedUpTab_joint : Joint wordLibrary 0 signedUp signedUpTab := by
  have hsubmitted : Joint wordLibrary 0 signedUp ((Tab.opened none false).step .submit) :=
    (Joint.opened signedUp none false).tab trivial
  exact hsubmitted.tab ⟨0, _, sessionUser, rfl, rfl⟩

theorem reload_keeps_signedUp : (signedUpTab.load true).screen = .loading ∧
    (signedUpTab.load true).restoring.filter (fun x => !x.cancelled) = [⟨sessionToken, false⟩] ∧
    ∃ profile, (.ok (.inr (.profile sessionUser.toUser)) : Except Failure (AuthResult ⊕ GateResult)) =
        .ok (.inr (.profile profile)) ∧ profile.toJSON.toPayload = sessionUser.toUser.toJSON.toPayload ∧
      ∀ (i : Nat) (x : Restoring), (signedUpTab.load true).restoring[i]? = some x → x.cancelled = false →
        ((signedUpTab.load true).restored i (.ok profile.toJSON)).screen = .chat ∧
        ((signedUpTab.load true).restored i (.ok profile.toJSON)).user = some profile.toJSON ∧
        ((signedUpTab.load true).restored i (.ok profile.toJSON)).token = some sessionToken ∧
        ((signedUpTab.load true).restored i (.ok profile.toJSON)).socket.map Connection.token =
          some sessionToken :=
  reload_keeps wordLibrary 0 reloaded signedUp [.answer 1, .resume 1] signedUpTab
    sessionUser.toUser.toJSON sessionToken true _ wordLibrary_tokens reloaded_unforged signedUpTab_joint rfl
    rfl rfl rfl reloaded_task (by intro h; cases h) (by decide)

end RealtimeChat
