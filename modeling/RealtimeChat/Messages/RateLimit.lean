import RealtimeChat.Data.FixedWindow
import RealtimeChat.Model.Effects

/-! The rate limit on `message:send`.

`checkMessageRateLimit` keeps a bucket for each user: a counter for windows of fixed
length (`Data/FixedWindow.lean`), the calls of the other users apart
(`allowed_checks`). The limit is documented as one on a sliding window. -/
namespace RealtimeChat
open Data Server

/-- One call of `checkMessageRateLimit`, at `now`, and what it returned. -/
structure RateLimitCheck where
  userId : ObjectId
  now : Nat
  allowed : Bool

section
variable (D : Deployment)

/-- Calls of any users, each after some more milliseconds. -/
def rateLimitChecks (s : Server) : List (Nat × ObjectId) → List RateLimitCheck
  | [] => []
  | (wait, userId) :: rest =>
    let waited := {s with clock := s.clock + wait}
    let result := checkMessageRateLimit D userId waited
    ⟨userId, waited.clock, result.1⟩ :: rateLimitChecks result.2 rest

/-- How many calls of the user have returned `true` in `[t, t + length)`. -/
def allowedWithin (userId : ObjectId) (t length : Nat) (checks : List RateLimitCheck) : Nat :=
  checks.countP fun c =>
    c.userId == userId && c.allowed && decide (t ≤ c.now ∧ c.now < t + length)

/-- **The documented limit**: `socketRateLimitMax` sends per `socketRateLimitWindowMs`, in
every interval of that length. -/
def SlidingWindow : Prop := ∀ (s : Server) (calls : List (Nat × ObjectId)) (userId : ObjectId)
    (t : Nat), (∀ u, s.buckets u = none) →
  allowedWithin userId t D.socketRateLimitWindowMs (rateLimitChecks D s calls) ≤
    D.socketRateLimitMax

/-! ### The buckets are windows of fixed length -/

def RateLimitBucket.window (bucket : RateLimitBucket) : FixedWindow.Window :=
  ⟨bucket.count, bucket.windowStart⟩

/-- The user's window. -/
def Server.window (s : Server) (userId : ObjectId) : Option FixedWindow.Window :=
  (s.buckets userId).map RateLimitBucket.window

theorem checkMessageRateLimit_window (userId : ObjectId) (s : Server) :
    ((checkMessageRateLimit D userId s).1, (checkMessageRateLimit D userId s).2.window userId) =
      FixedWindow.offer D.socketRateLimitMax D.socketRateLimitWindowMs s.clock (s.window userId) := by
  unfold checkMessageRateLimit Server.window
  cases hbucket : s.buckets userId with
  | none => simp [FixedWindow.offer, RateLimitBucket.window]
  | some bucket =>
    simp only [FixedWindow.offer, Option.map_some, RateLimitBucket.window, ge_iff_le]
    split
    · simp [RateLimitBucket.window]
    · split <;> simp [hbucket, RateLimitBucket.window]

theorem checkMessageRateLimit_clock (userId : ObjectId) (s : Server) :
    (checkMessageRateLimit D userId s).2.clock = s.clock := by
  obtain ⟨buckets, h⟩ := checkMessageRateLimit_buckets D userId s
  rw [h]

theorem checkMessageRateLimit_others {userId other : ObjectId} (h : other ≠ userId) (s : Server) :
    (checkMessageRateLimit D userId s).2.window other = s.window other := by
  unfold checkMessageRateLimit Server.window
  cases hbucket : s.buckets userId with
  | none => simp [h]
  | some bucket =>
    simp only
    split
    · simp [h]
    · split
      · rfl
      · simp [h]

/-! ### One user's calls among all -/

/-- When the user's calls are made, the first after `now`. -/
def callTimes (userId : ObjectId) (now : Nat) : List (Nat × ObjectId) → List Nat
  | [] => []
  | (wait, u) :: rest =>
    if u = userId then (now + wait) :: callTimes userId (now + wait) rest
    else callTimes userId (now + wait) rest

theorem callTimes_sorted (userId : ObjectId) (now : Nat) (calls : List (Nat × ObjectId)) :
    (∀ x ∈ callTimes userId now calls, now ≤ x) ∧
      (callTimes userId now calls).Pairwise (· ≤ ·) := by
  induction calls generalizing now with
  | nil => exact ⟨nofun, .nil⟩
  | cons call rest ih =>
    obtain ⟨wait, u⟩ := call
    obtain ⟨hlater, hsorted⟩ := ih (now + wait)
    have hle : ∀ x ∈ callTimes userId (now + wait) rest, now ≤ x :=
      fun x hx => Nat.le_trans (Nat.le_add_right now wait) (hlater x hx)
    unfold callTimes
    split
    · refine ⟨fun x hx => ?_, List.pairwise_cons.mpr ⟨hlater, hsorted⟩⟩
      rcases List.mem_cons.mp hx with rfl | hx
      · exact Nat.le_add_right now wait
      · exact hle x hx
    · exact ⟨hle, hsorted⟩

/-- **A user's allowed calls are those that his window admits**, whoever calls in between. -/
theorem allowed_checks (userId : ObjectId) (s : Server) (calls : List (Nat × ObjectId)) :
    ((rateLimitChecks D s calls).filter fun c => c.userId == userId && c.allowed).map
        RateLimitCheck.now =
      FixedWindow.admitted D.socketRateLimitMax D.socketRateLimitWindowMs (s.window userId)
        (callTimes userId s.clock calls) := by
  induction calls generalizing s with
  | nil => rfl
  | cons call rest ih =>
    obtain ⟨wait, u⟩ := call
    unfold rateLimitChecks callTimes
    generalize hwaited : {s with clock := s.clock + wait} = waited
    have hclock : waited.clock = s.clock + wait := by rw [← hwaited]
    have hwindow : waited.window userId = s.window userId := by rw [← hwaited]; rfl
    have hrest := ih (checkMessageRateLimit D u waited).2
    rw [checkMessageRateLimit_clock, hclock] at hrest
    by_cases hu : u = userId
    · subst hu
      have hcheck := checkMessageRateLimit_window D u waited
      rw [hwindow, hclock] at hcheck
      rw [if_pos rfl, FixedWindow.admitted, ← hcheck]
      cases hallowed : (checkMessageRateLimit D u waited).1 with
      | true =>
        simp only [if_true]
        rw [List.filter_cons_of_pos (by simp [hallowed]), List.map_cons, hrest, hclock]
      | false => rw [List.filter_cons_of_neg (by simp [hallowed]), hrest, if_neg Bool.false_ne_true]
    · rw [if_neg hu, ← hwindow, ← checkMessageRateLimit_others D (Ne.symm hu) waited, ← hrest]
      rw [List.filter_cons_of_neg (by simp [hu])]

theorem allowedWithin_eq (userId : ObjectId) (t length : Nat) (checks : List RateLimitCheck) :
    allowedWithin userId t length checks = FixedWindow.within t length
      ((checks.filter fun c => c.userId == userId && c.allowed).map RateLimitCheck.now) := by
  rw [FixedWindow.within, List.countP_map, List.countP_filter, allowedWithin]
  congr 1
  funext c
  simp only [Function.comp, Bool.and_comm]

variable {D}

/-- What the limiter does promise: less than twice the limit. -/
theorem allowedWithin_le {s : Server} (hboot : ∀ u, s.buckets u = none)
    (hmax : 0 < D.socketRateLimitMax) (hwindow : 0 < D.socketRateLimitWindowMs)
    (calls : List (Nat × ObjectId)) (userId : ObjectId) (t : Nat) :
    allowedWithin userId t D.socketRateLimitWindowMs (rateLimitChecks D s calls) ≤
      FixedWindow.carried D.socketRateLimitMax D.socketRateLimitWindowMs + D.socketRateLimitMax := by
  have hnone : s.window userId = none := by rw [Server.window, hboot]; rfl
  rw [allowedWithin_eq, allowed_checks, hnone]
  exact FixedWindow.within_admitted_le (callTimes_sorted userId s.clock calls).2 hwindow hmax

/-! ### Calls that fill the end of a window and the beginning of the next -/

/-- The waits between times in order. -/
def waits (now : Nat) : List Nat → List Nat
  | [] => []
  | t :: rest => (t - now) :: waits t rest

theorem callTimes_waits (userId : ObjectId) (now : Nat) {times : List Nat}
    (hsorted : (now :: times).Pairwise (· ≤ ·)) :
    callTimes userId now ((waits now times).map fun wait => (wait, userId)) = times := by
  induction times generalizing now with
  | nil => rfl
  | cons t rest ih =>
    obtain ⟨hfirst, hrest⟩ := List.pairwise_cons.mp hsorted
    have ht : now + (t - now) = t := Nat.add_sub_cancel' (hfirst t (.head _))
    simp only [waits, List.map_cons, callTimes, if_true, ht, ih t hrest]

/-- **The limit is that of a sliding window only where windows of fixed length cannot
differ from one**: with one message per window, or windows of one millisecond. -/
theorem slidingWindow_iff (hmax : 0 < D.socketRateLimitMax)
    (hwindow : 0 < D.socketRateLimitWindowMs) :
    SlidingWindow D ↔ D.socketRateLimitMax = 1 ∨ D.socketRateLimitWindowMs = 1 := by
  constructor
  · intro h
    by_contra hnot
    obtain ⟨hmany, hlong⟩ := not_or.mp hnot
    let userId : ObjectId := .ending 1
    let calls := (waits 0 (FixedWindow.crowd D.socketRateLimitMax D.socketRateLimitWindowMs)).map
      fun wait => (wait, userId)
    have htimes : callTimes userId 0 calls = _ := callTimes_waits userId 0 FixedWindow.crowd_sorted
    have hle := h (.boot .empty .empty .empty 0) calls userId 1 fun _ => rfl
    rw [allowedWithin_eq, allowed_checks] at hle
    change FixedWindow.within _ _ (FixedWindow.admitted _ _ none (callTimes userId 0 calls)) ≤ _ at hle
    rw [htimes, FixedWindow.crowd_admitted hwindow hmax,
      FixedWindow.within_crowd (by omega)] at hle
    omega
  · intro hone s calls userId t hboot
    have hle := allowedWithin_le hboot hmax hwindow calls userId t
    have hcarried : FixedWindow.carried D.socketRateLimitMax D.socketRateLimitWindowMs = 0 := by
      unfold FixedWindow.carried
      split <;> omega
    omega

theorem slidingWindow_iff_default : SlidingWindow .default ↔ 10 = 1 ∨ 10 * 1000 = 1 :=
  slidingWindow_iff (D := .default) (by decide) (by decide)

/-- With the limits of `config/env.ts`: one call, nine more just before its window ends,
and ten when it has ended. Nineteen of them are allowed within ten seconds. -/
theorem slidingWindow_default_exceeded : ¬ SlidingWindow .default := by
  intro h
  have hle := h (.boot .empty .empty .empty 0)
    ((0, .ending 1) :: (9999, .ending 1) :: List.replicate 8 (0, .ending 1) ++
      (1, .ending 1) :: List.replicate 9 (0, .ending 1)) (.ending 1) 1 fun _ => rfl
  revert hle
  decide +kernel

end

end RealtimeChat
