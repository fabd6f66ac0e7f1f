import RealtimeChat.Data.Runs
import RealtimeChat.Model.Events

/-! When a client stops saying that its user is typing (`frontend-ui/src/hooks/useMessages.ts`).

A keystroke emits `typing:start` and sets a timer that is to emit `typing:stop`; the next
keystroke clears the timer and sets another. There is one reference to a timer for all
conversations: a keystroke in a second conversation clears the timer of the first, whose
`typing:stop` is then never emitted (`stopsDue_iff`). -/
namespace RealtimeChat
open Data (Text)
open Data.Runs

/-- `setTimeout(() => socket?.emit('typing:stop', { conversationId }), TYPING_STOP_DELAY_MS)`,
not yet expired. -/
structure TypingTimer where
  id : Nat
  conversationId : ObjectId

/-- The hook of a signed-in user, whose socket is there, with the timers of the browser and
what has been emitted, latest first. -/
structure TypingClient where
  conversationId : Option ObjectId
  /-- `typingTimeoutRef.current` -/
  typingTimeoutRef : Option Nat
  timers : List TypingTimer
  /-- What `setTimeout` returns next. -/
  nextTimer : Nat
  emitted : List (TypingSignal × ObjectId)

inductive TypingMove where
  | keystroke
  | select (conversationId : Option ObjectId)
  | expire (timer : Nat)

namespace TypingClient

def mounted : TypingClient := ⟨none, none, [], 1, []⟩

def notifyTyping (s : TypingClient) : TypingClient :=
  match s.conversationId with
  | none => s
  | some conversationId =>
    {s with
      emitted := (.start, conversationId) :: s.emitted
      timers := s.timers.filter (fun t => s.typingTimeoutRef != some t.id) ++
        [⟨s.nextTimer, conversationId⟩]
      typingTimeoutRef := some s.nextTimer
      nextTimer := s.nextTimer + 1}

/-- The callback of a timer runs; one that has been cleared does not. -/
def expire (timer : Nat) (s : TypingClient) : TypingClient :=
  match s.timers.find? fun t => t.id == timer with
  | none => s
  | some t =>
    {s with
      emitted := (.stop, t.conversationId) :: s.emitted
      timers := s.timers.filter fun t => t.id != timer}

def step (s : TypingClient) : TypingMove → TypingClient
  | .keystroke => s.notifyTyping
  | .select conversationId => {s with conversationId}
  | .expire timer => s.expire timer

/-- The last typing event emitted for the conversation. -/
def lastSignal (emitted : List (TypingSignal × ObjectId)) (conversationId : ObjectId) :
    Option TypingSignal :=
  (emitted.find? fun e => e.2 == conversationId).map Prod.fst

/-- Where the user is said to be typing, the end of it is on its way. -/
structure StopsDue (s : TypingClient) : Prop where
  pending : ∀ conversationId, lastSignal s.emitted conversationId = some .start →
    ∃ t ∈ s.timers, t.conversationId = conversationId
  settled : s.timers = [] → ∀ conversationId, lastSignal s.emitted conversationId ≠ some .start

/-- A keystroke finds no timer of another conversation pending. -/
def FindsOwnTimer (s : TypingClient) : TypingMove → Prop
  | .keystroke => ∀ conversationId, s.conversationId = some conversationId →
    ∀ t ∈ s.timers, t.conversationId = conversationId
  | _ => True

/-! ### One timer at a time -/

/-- At most one timer is pending, the one that is referred to, and its conversation was
told last that the user is typing. -/
structure Ticking (s : TypingClient) : Prop where
  single : s.timers = [] ∨ ∃ t, s.timers = [t] ∧ s.typingTimeoutRef = some t.id
  started : ∀ t ∈ s.timers, lastSignal s.emitted t.conversationId = some .start

section
variable {s : TypingClient} {conversationId : ObjectId}

theorem lastSignal_cons (signal : TypingSignal) (conversationId other : ObjectId)
    (emitted : List (TypingSignal × ObjectId)) :
    lastSignal ((signal, conversationId) :: emitted) other =
      if conversationId = other then some signal else lastSignal emitted other := by
  by_cases h : conversationId = other <;> simp [lastSignal, h]

/-- With a timer pending there is nothing to settle, and without one nothing is pending. -/
theorem stopsDue_iff_pending : StopsDue s ↔ ∀ conversationId,
    lastSignal s.emitted conversationId = some .start → ∃ t ∈ s.timers, t.conversationId = conversationId := by
  refine ⟨StopsDue.pending, fun h => ⟨h, fun hnone id hstart => ?_⟩⟩
  obtain ⟨t, ht, -⟩ := h id hstart
  rw [hnone] at ht
  cases ht

/-- A keystroke leaves its own timer, and no other. -/
theorem Ticking.keystroke (h : Ticking s) (hactive : s.conversationId = some conversationId) :
    s.notifyTyping = {s with
      emitted := (.start, conversationId) :: s.emitted
      timers := [⟨s.nextTimer, conversationId⟩]
      typingTimeoutRef := some s.nextTimer
      nextTimer := s.nextTimer + 1} := by
  have hcleared : s.timers.filter (fun t => s.typingTimeoutRef != some t.id) = [] := by
    rcases h.single with hnone | ⟨t, hone, href⟩
    · rw [hnone, List.filter_nil]
    · simp [hone, href]
  simp only [notifyTyping, hactive, hcleared, List.nil_append]

/-- A timer that expires is the only one. -/
theorem Ticking.expire (h : Ticking s) (timer : Nat) : s.expire timer = s ∨
    ∃ t, s.timers = [t] ∧ s.expire timer =
      {s with emitted := (.stop, t.conversationId) :: s.emitted, timers := []} := by
  rcases h.single with hnone | ⟨t, hone, -⟩
  · exact .inl (by simp [TypingClient.expire, hnone])
  · by_cases heq : t.id = timer
    · exact .inr ⟨t, hone, by simp [TypingClient.expire, hone, heq]⟩
    · exact .inl (by simp [TypingClient.expire, hone, heq])

theorem ticking_step (s : TypingClient) (m : TypingMove) (h : Ticking s) : Ticking (s.step m) := by
  cases m with
  | keystroke =>
    show Ticking s.notifyTyping
    cases hactive : s.conversationId with
    | none =>
      rw [notifyTyping, hactive]
      exact h
    | some conversationId =>
      rw [h.keystroke hactive]
      refine ⟨.inr ⟨_, rfl, rfl⟩, fun t ht => ?_⟩
      rw [List.mem_singleton.mp ht, lastSignal_cons, if_pos rfl]
  | select conversationId => exact ⟨h.single, h.started⟩
  | expire timer =>
    show Ticking (s.expire timer)
    rcases h.expire timer with hsame | ⟨t, hone, hexpired⟩
    · rw [hsame]
      exact h
    · rw [hexpired]
      exact ⟨.inl rfl, by simp⟩

/-- A keystroke that clears another conversation's timer leaves that conversation without. -/
theorem stopsDue_keystroke (h : Ticking s) (hdue : StopsDue s)
    (hactive : s.conversationId = some conversationId) :
    StopsDue s.notifyTyping ↔ ∀ t ∈ s.timers, t.conversationId = conversationId := by
  rw [h.keystroke hactive, stopsDue_iff_pending]
  simp only [List.mem_singleton, exists_eq_left, lastSignal_cons]
  constructor
  · intro hall t ht
    by_contra hne
    refine hne (hall t.conversationId ?_).symm
    rw [if_neg (Ne.symm hne)]
    exact h.started t ht
  · intro hall other hstart
    split at hstart
    · assumption
    · obtain ⟨t, ht, rfl⟩ := hdue.pending other hstart
      exact (hall t ht).symm

theorem stopsDue_step (s : TypingClient) (m : TypingMove) (h : Ticking s) (hdue : StopsDue s) :
    StopsDue (s.step m) ↔ FindsOwnTimer s m := by
  cases m with
  | keystroke =>
    show StopsDue s.notifyTyping ↔ ∀ conversationId, s.conversationId = some conversationId → _
    cases hactive : s.conversationId with
    | none =>
      rw [notifyTyping, hactive]
      exact iff_of_true hdue (by simp)
    | some conversationId =>
      rw [stopsDue_keystroke h hdue hactive]
      simp
  | select conversationId => exact iff_of_true ⟨hdue.pending, hdue.settled⟩ trivial
  | expire timer =>
    refine iff_of_true ?_ trivial
    show StopsDue (s.expire timer)
    rcases h.expire timer with hsame | ⟨t, hone, hexpired⟩
    · rw [hsame]
      exact hdue
    · rw [hexpired, stopsDue_iff_pending]
      intro other hstart
      rw [lastSignal_cons] at hstart
      split at hstart
      · cases hstart
      · rename_i hne
        obtain ⟨t', ht', rfl⟩ := hdue.pending other hstart
        rw [hone, List.mem_singleton] at ht'
        exact absurd (congrArg TypingTimer.conversationId ht'.symm) hne

end

/-- **Every start is followed by a stop, or by one that is due**, in all states of exactly
those runs in which no keystroke comes while a timer of another conversation is pending. -/
theorem stopsDue_iff (moves : List TypingMove) :
    Throughout step StopsDue mounted moves ↔ AtEvery step FindsOwnTimer mounted moves :=
  throughout_iff ticking_step stopsDue_step ⟨.inl rfl, by simp [mounted]⟩
    (stopsDue_iff_pending.mpr (by simp [mounted, lastSignal])) moves

/-- A keystroke in one conversation, another in a second one, and the timer expires: no
timer is pending, and the first conversation has been told last that the user is typing. -/
theorem switch_leaves_typing : ¬ StopsDue ([.select (some (.ending 1)), .keystroke,
    .select (some (.ending 2)), .keystroke, .expire 2].foldl step mounted) :=
  fun h => h.settled (by decide) (.ending 1) (by decide)

end TypingClient

end RealtimeChat
