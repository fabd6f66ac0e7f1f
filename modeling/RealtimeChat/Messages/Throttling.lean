import RealtimeChat.Messages.RateLimit

/-! Whom the rate limit throttles.

A call is refused only to a user who has used up the limit, the calls of other users do
not count, and a refused call leaves no trace (`throttled_fairly`). -/
namespace RealtimeChat
open Data Server

section
variable (D : Deployment)

/-- Calls of any users, each with the time at which it is made. -/
def checksAt (s : Server) : List (Nat × ObjectId) → List RateLimitCheck
  | [] => []
  | (now, userId) :: rest =>
    let result := checkMessageRateLimit D userId {s with clock := now}
    ⟨userId, now, result.1⟩ :: checksAt result.2 rest

/-- The call again, without its result. -/
def RateLimitCheck.call (c : RateLimitCheck) : Nat × ObjectId := (c.now, c.userId)

/-- Some of the refused calls are left out. -/
inductive Unrefused : List RateLimitCheck → List RateLimitCheck → Prop where
  | nil : Unrefused [] []
  | keep {c : RateLimitCheck} {checks kept : List RateLimitCheck} (h : Unrefused checks kept) :
    Unrefused (c :: checks) (c :: kept)
  | drop {c : RateLimitCheck} {checks kept : List RateLimitCheck} (hrefused : c.allowed = false)
    (h : Unrefused checks kept) : Unrefused (c :: checks) kept

/-- What the limiter owes the callers. -/
structure Fair (s : Server) (calls : List (Nat × ObjectId)) : Prop where
  /-- A refused user has had the whole limit in the window that ends with the call. -/
  exhausted : ∀ earlier c later, checksAt D s calls = earlier ++ c :: later → c.allowed = false →
    D.socketRateLimitMax ≤ earlier.countP fun e => e.userId == c.userId && e.allowed &&
      decide (c.now < e.now + D.socketRateLimitWindowMs ∧ e.now ≤ c.now)
  /-- The other users' calls may as well not be made. -/
  apart : ∀ userId, (checksAt D s calls).filter (fun c => c.userId == userId) =
    checksAt D s (calls.filter fun call => call.2 == userId)
  /-- Nor may the refused ones. -/
  traceless : ∀ kept, Unrefused (checksAt D s calls) kept →
    checksAt D s (kept.map RateLimitCheck.call) = kept

variable {D}

theorem checksAt_cons (s : Server) (now : Nat) (userId : ObjectId) (rest : List (Nat × ObjectId)) :
    checksAt D s ((now, userId) :: rest) =
      ⟨userId, now, (checkMessageRateLimit D userId {s with clock := now}).1⟩ ::
        checksAt D (checkMessageRateLimit D userId {s with clock := now}).2 rest := rfl

/-- Each call sets the clock. -/
theorem checksAt_clock (s : Server) (n : Nat) (calls : List (Nat × ObjectId)) :
    checksAt D {s with clock := n} calls = checksAt D s calls := by
  cases calls with
  | nil => rfl
  | cons call rest => rfl

/-- A refused call changes nothing. -/
theorem checkMessageRateLimit_refused {userId : ObjectId} {s : Server}
    (h : (checkMessageRateLimit D userId s).1 = false) : (checkMessageRateLimit D userId s).2 = s := by
  unfold checkMessageRateLimit at h ⊢
  cases hbucket : s.buckets userId with
  | none => simp [hbucket] at h
  | some bucket =>
    simp only [hbucket] at h ⊢
    split at h
    · cases h
    · rename_i hsame
      rw [if_neg hsame]
      split at h
      · rename_i hfull
        rw [if_pos hfull]
      · cases h

theorem checksAt_unrefused {s : Server} {calls : List (Nat × ObjectId)} {kept : List RateLimitCheck}
    (h : Unrefused (checksAt D s calls) kept) : checksAt D s (kept.map RateLimitCheck.call) = kept := by
  induction calls generalizing s kept with
  | nil =>
    cases h
    rfl
  | cons call rest ih =>
    obtain ⟨now, userId⟩ := call
    cases h with
    | keep h =>
      rw [List.map_cons, RateLimitCheck.call, checksAt_cons, ih h]
    | drop hrefused h =>
      rw [checkMessageRateLimit_refused hrefused, checksAt_clock] at h
      exact ih h

/-- The calls of one user, from states in which his window is the same. -/
theorem checksAt_apart {userId : ObjectId} {s t : Server} (h : s.window userId = t.window userId)
    (calls : List (Nat × ObjectId)) : (checksAt D s calls).filter (fun c => c.userId == userId) =
      checksAt D t (calls.filter fun call => call.2 == userId) := by
  induction calls generalizing s t with
  | nil => rfl
  | cons call rest ih =>
    obtain ⟨now, u⟩ := call
    rw [checksAt_cons]
    by_cases hu : u = userId
    · subst hu
      have hs := checkMessageRateLimit_window D u {s with clock := now}
      have ht := checkMessageRateLimit_window D u {t with clock := now}
      have hsame := hs.trans ((congrArg (FixedWindow.offer _ _ now) h).trans ht.symm)
      obtain ⟨hresult, hwindow⟩ := Prod.mk.inj hsame
      rw [List.filter_cons_of_pos (by simp), List.filter_cons_of_pos (by simp), checksAt_cons,
        ih hwindow, hresult]
    · rw [List.filter_cons_of_neg (by simpa using hu), List.filter_cons_of_neg (by simpa using hu)]
      exact ih ((checkMessageRateLimit_others D (Ne.symm hu) _).trans h)

/-- One user's calls and their results, as those of his window. -/
theorem checksAt_offers (userId : ObjectId) (s : Server) (calls : List (Nat × ObjectId)) :
    ((checksAt D s calls).filter fun c => c.userId == userId).map (fun c => (c.now, c.allowed)) =
      FixedWindow.offers D.socketRateLimitMax D.socketRateLimitWindowMs (s.window userId)
        ((calls.filter fun call => call.2 == userId).map Prod.fst) := by
  induction calls generalizing s with
  | nil => rfl
  | cons call rest ih =>
    obtain ⟨now, u⟩ := call
    rw [checksAt_cons]
    by_cases hu : u = userId
    · subst hu
      have hcheck := checkMessageRateLimit_window D u {s with clock := now}
      rw [List.filter_cons_of_pos (by simp), List.filter_cons_of_pos (by simp), List.map_cons, ih,
        List.map_cons, FixedWindow.offers]
      show (now, _) :: FixedWindow.offers _ _ ((checkMessageRateLimit D u _).2.window u) _ = _
      rw [← show _ = FixedWindow.offer _ _ now (s.window u) from hcheck]
    · rw [List.filter_cons_of_neg (by simpa using hu), List.filter_cons_of_neg (by simpa using hu), ih,
        checkMessageRateLimit_others D (Ne.symm hu)]
      rfl

end

/-- **The limiter is fair** to calls in order of time, whoever makes them. -/
theorem throttled_fairly (D : Deployment) {s : Server} (hboot : ∀ u, s.buckets u = none)
    {calls : List (Nat × ObjectId)} (hsorted : (calls.map Prod.fst).Pairwise (· ≤ ·)) :
    Fair D s calls where
  exhausted earlier c later hchecks hrefused := by
    have hoffers := checksAt_offers (D := D) c.userId s calls
    have hnone : s.window c.userId = none := by rw [Server.window, hboot]; rfl
    rw [hchecks, List.filter_append, List.filter_cons_of_pos (by simp), List.map_append, List.map_cons,
      hrefused, hnone] at hoffers
    have hcalls : ((calls.filter fun call => call.2 == c.userId).map Prod.fst).Pairwise (· ≤ ·) :=
      hsorted.sublist (List.filter_sublist.map _)
    have hfull := FixedWindow.refused_full hcalls hoffers.symm
    rw [List.countP_map, List.countP_filter] at hfull
    refine Nat.le_trans hfull (List.countP_mono_left fun e _ he => ?_)
    simp only [Function.comp, FixedWindow.counts, Bool.and_eq_true] at he ⊢
    exact ⟨⟨he.2, he.1.1⟩, he.1.2⟩
  apart userId := checksAt_apart rfl calls
  traceless _ h := checksAt_unrefused h

/-- One message a second: two users, one of them in a hurry. -/
theorem throttled_fairly_two : Fair {Deployment.default with
    socketRateLimitMax := 1, socketRateLimitWindowMs := 1000} (.boot .empty .empty .empty 0)
    [(0, .ending 1), (5, .ending 2), (999, .ending 1), (999, .ending 1), (1000, .ending 1)] :=
  throttled_fairly _ (fun _ => rfl) (by decide)

end RealtimeChat
