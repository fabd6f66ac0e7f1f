import RealtimeChat.Messages.RateLimit
import RealtimeChat.Messages.Sends
import RealtimeChat.Rooms.Announce

/-! How much one user can store.

A user's message is stored only by a task that `checkMessageRateLimit` has let through, and
by each such task once (`Rationed`). The limiter lets through what fixed windows admit
(`Limited`, `Data/FixedWindow.lean`). So a user who floods the server, over as many
connections as he likes, stores no more than a window's worth of messages for each window
since the process was started (`flood_bounded`). -/
namespace RealtimeChat
open Data
open Async Async.System
open Server (answer_messages)

/-- The messages of the user that are stored. -/
def Server.sentBy (s : Server) (userId : ObjectId) : Nat :=
  s.messages.docs.countP fun m => m.senderId == userId

/-- The task of a message of the user's that the limiter lets through. -/
def passage (userId : ObjectId) : Event chatInterface Failure Call → Option Nat
  | .acted pid (.checkMessageRateLimit u) true => if u = userId then some pid else none
  | _ => none

/-- The task that stores a message of the user's. -/
def storing (userId : ObjectId) : Event chatInterface Failure Call → Option Nat
  | .answered pid (.messageCreate _ _ u _ _) (.ok _) => if u = userId then some pid else none
  | _ => none

/-- Whoever stores a message of the user's has been let through, and stores no other. -/
structure Rationed (start : Server) (userId : ObjectId)
    (w : World chatInterface Server Failure Call) : Prop where
  once : (w.log.filterMap (storing userId)).Nodup
  passed : ∀ pid ∈ w.log.filterMap (storing userId), pid ∈ w.log.filterMap (passage userId)
  stored : w.state.sentBy userId ≤ start.sentBy userId + (w.log.filterMap (storing userId)).length

section
variable {D : Deployment} {start : Server} {userId : ObjectId}
  {w w' : World chatInterface Server Failure Call}

theorem storing_eq_some {e : Event chatInterface Failure Call} {pid : Nat}
    (h : storing userId e = some pid) : ∃ id spelling text t m,
      e = .answered pid (.messageCreate id spelling userId text t) (.ok m) := by
  unfold storing at h
  split at h
  · split at h
    · rename_i hu
      cases h
      exact ⟨_, _, _, _, _, by rw [hu]⟩
    · cases h
  · cases h

theorem Rationed.length_le (h : Rationed start userId w) :
    (w.log.filterMap (storing userId)).length ≤ (w.log.filterMap (passage userId)).length :=
  (h.once.subperm h.passed).length_le

/-- An entry that stores nothing of the user's. -/
theorem Rationed.same (h : Rationed start userId w) {e : Event chatInterface Failure Call}
    (he : storing userId e = none) (hlog : w'.log = e :: w.log)
    (hstored : w'.state.sentBy userId ≤ w.state.sentBy userId) : Rationed start userId w' := by
  have hsame : w'.log.filterMap (storing userId) = w.log.filterMap (storing userId) := by
    rw [hlog, List.filterMap_cons, he]
  refine ⟨hsame ▸ h.once, fun pid hpid => ?_, hsame ▸ Nat.le_trans hstored h.stored⟩
  rw [hlog]
  exact ((List.sublist_cons_self e w.log).filterMap _).subset (h.passed pid (hsame ▸ hpid))

theorem sentBy_of_messages {s s' : Server} (h : s'.messages = s.messages) :
    s'.sentBy userId = s.sentBy userId := by
  rw [Server.sentBy, h, Server.sentBy]

theorem sentBy_setStatus (p : Message → Bool) (status : MessageStatus) (now : Nat) (s : Server) :
    (s.setStatus p status now).sentBy userId = s.sentBy userId := by
  show List.countP _ (List.map _ _) = _
  rw [List.countP_map]
  congr 1
  funext m
  simp only [Function.comp]
  split <;> rfl

/-- A query stores a message of the user's, and is logged for that, or it does not. -/
theorem sentBy_answer (userId : ObjectId) (pid : Nat) (q : Query) (s : Server) :
    (Server.answer D q s).2.sentBy userId ≤ s.sentBy userId ∨
      (Server.answer D q s).2.sentBy userId = s.sentBy userId + 1 ∧
        storing userId (.answered pid q (Server.answer D q s).1) = some pid := by
  cases answer_messages D q s with
  | same h => exact .inl (Nat.le_of_eq (sentBy_of_messages h))
  | saved h => exact .inl (Nat.le_of_eq ((sentBy_of_messages h).trans (sentBy_setStatus _ _ _ s)))
  | updated h => exact .inl (Nat.le_of_eq ((sentBy_of_messages h).trans (sentBy_setStatus _ _ _ s)))
  | @created id spelling conversationId senderId text now r hcast hanswer hinsert =>
    rw [Server.sentBy, (Collection.insert_eq_some hinsert).1, List.countP_append,
      List.countP_singleton, hanswer]
    by_cases hu : senderId = userId
    · exact .inr ⟨by simp [hu, Server.sentBy], by simp [storing, hu]⟩
    · exact .inl (by simp [hu, Server.sentBy])

/-- By the law of sending, a task that stores a message has been let through, and has stored none
before. -/
theorem passed_first {call : Call} {pid : Nat} {id : ObjectId} {spelling text : Text} {t : Nat}
    {r : Except Failure Message}
    (hlaw : call.law (deeds pid w.log) (.answered (.messageCreate id spelling userId text t) r)) :
    pid ∈ w.log.filterMap (passage userId) ∧ pid ∉ w.log.filterMap (storing userId) := by
  obtain ⟨socket, args, k, -, input, c, -, rfl, rfl, rfl, rfl, hdeeds⟩ := Call.law_ofSend hlaw trivial
  constructor
  · have hdeed : .acted (.checkMessageRateLimit socket.userId) true ∈ deeds pid w.log := by
      rw [hdeeds]
      exact .tail _ (.tail _ (.head _))
    exact List.mem_filterMap.mpr ⟨_, mem_deeds_acted.mp hdeed, if_pos rfl⟩
  · intro hmem
    obtain ⟨e, he, hstored⟩ := List.mem_filterMap.mp hmem
    obtain ⟨_, _, _, _, _, rfl⟩ := storing_eq_some hstored
    have hdeed := mem_deeds_answered.mpr he
    rw [hdeeds] at hdeed
    simp [Sending.found, Sending.admitted] at hdeed

/-- An entry by which a task stores a message. -/
theorem Rationed.cons (h : Rationed start userId w) {e : Event chatInterface Failure Call} {pid : Nat}
    (he : storing userId e = some pid) (hpassed : pid ∈ w.log.filterMap (passage userId))
    (hfirst : pid ∉ w.log.filterMap (storing userId)) (hlog : w'.log = e :: w.log)
    (hstored : w'.state.sentBy userId ≤ w.state.sentBy userId + 1) : Rationed start userId w' := by
  have hcons : w'.log.filterMap (storing userId) = pid :: w.log.filterMap (storing userId) := by
    rw [hlog, List.filterMap_cons_some he]
  have hsublist : (w.log.filterMap (passage userId)).Sublist (w'.log.filterMap (passage userId)) := by
    rw [hlog]
    exact (List.sublist_cons_self e w.log).filterMap _
  refine ⟨?_, fun pid' hpid' => ?_, ?_⟩
  · rw [hcons]
    exact List.nodup_cons.mpr ⟨hfirst, h.once⟩
  · rw [hcons] at hpid'
    rcases List.mem_cons.mp hpid' with rfl | hpid'
    · exact hsublist.subset hpassed
    · exact hsublist.subset (h.passed pid' hpid')
  · have hbefore := h.stored
    rw [hcons, List.length_cons]
    omega

theorem rationed_preserved (D : Deployment) (start : Server) (userId : ObjectId) :
    (chat D).Preserves Call.law (Rationed start userId) where
  acts h _ _ := h.same rfl rfl (Nat.le_of_eq (sentBy_of_messages (Server.act_messages D _ _)))
  rejects h _ _ := by
    refine h.same ?_ rfl (Nat.le_refl _)
    unfold storing
    split
    · rename_i heq
      injection heq with _ hq hanswer
      subst hq
      cases eq_of_heq hanswer
    · rfl
  arrives h _ ha := h.same rfl rfl (Nat.le_of_eq (sentBy_of_messages (accept_sameBehind ha).messages))
  passes h := ⟨h.once, h.passed, h.stored⟩
  answers := by
    intro pid call q w h _ hlaw
    have hsent := sentBy_answer (D := D) userId pid q w.state
    cases hstoring : storing userId (.answered pid q (Server.answer D q w.state).1) with
    | none =>
      refine h.same hstoring rfl ?_
      rcases hsent with hle | ⟨-, hsome⟩
      · exact hle
      · cases hstoring.symm.trans hsome
    | some pid' =>
      obtain ⟨id, spelling, text, t, m, heq⟩ := storing_eq_some hstoring
      injection heq with hpid hq hanswer
      subst hpid hq
      obtain ⟨hpassed, hfirst⟩ := passed_first hlaw
      exact h.cons hstoring hpassed hfirst rfl (hsent.elim Nat.le_succ_of_le fun h => Nat.le_of_eq h.1)

/-! ### What the limiter lets through -/

/-- The limiter has let through what the user's windows admit. -/
def Limited (D : Deployment) (start : Nat) (userId : ObjectId)
    (w : World chatInterface Server Failure Call) : Prop :=
  FixedWindow.Metered D.socketRateLimitMax D.socketRateLimitWindowMs start
    (w.log.filterMap (passage userId)).length w.state.clock (w.state.window userId)

theorem window_of_buckets {s s' : Server} (h : s'.buckets = s.buckets) :
    s'.window userId = s.window userId := by
  rw [Server.window, h, Server.window]

/-- An entry that lets nothing through. -/
theorem Limited.same {n : Nat} (h : Limited D n userId w) {e : Event chatInterface Failure Call}
    (he : passage userId e = none) (hlog : w'.log = e :: w.log)
    (hclock : w'.state.clock = w.state.clock)
    (hwindow : w'.state.window userId = w.state.window userId) : Limited D n userId w' := by
  have hsame : w'.log.filterMap (passage userId) = w.log.filterMap (passage userId) := by
    rw [hlog, List.filterMap_cons, he]
  rw [Limited, hsame, hclock, hwindow]
  exact h

theorem passage_other {pid : Nat} {u : ObjectId} (hu : u ≠ userId) (allowed : Bool) :
    passage userId (.acted pid (.checkMessageRateLimit u) allowed) = none := by
  cases allowed with
  | false => rfl
  | true => exact if_neg hu

theorem passage_length (pid : Nat) (allowed : Bool) (log : Log) :
    (List.filterMap (passage userId) (.acted pid (.checkMessageRateLimit userId) allowed :: log)).length =
      (log.filterMap (passage userId)).length + allowed.toNat := by
  cases allowed with
  | false => rfl
  | true =>
    have hpassed : passage userId (.acted pid (.checkMessageRateLimit userId) true) = some pid := if_pos rfl
    rw [List.filterMap_cons_some hpassed]
    rfl

theorem limited_preserved (D : Deployment) (n : Nat) (userId : ObjectId) :
    (chat D).Preserves Call.law (Limited D n userId) where
  answers h _ _ := h.same rfl rfl (Server.answer_sameProcess D _ _).clock
    (window_of_buckets (Server.answer_sameProcess D _ _).buckets)
  rejects h _ _ := h.same rfl rfl rfl rfl
  arrives h _ ha := h.same rfl rfl (accept_sameBehind ha).clock
    (window_of_buckets (accept_sameBehind ha).buckets)
  passes h := FixedWindow.Metered.later h (Nat.le_add_right _ _)
  acts := by
    intro pid call a w h _ _
    have hclock := (Server.act_sameStore D a w.state).clock
    cases a with
    | checkMessageRateLimit u =>
      by_cases hu : u = userId
      · subst hu
        have hoffer := FixedWindow.Metered.offer h
        rw [← checkMessageRateLimit_window] at hoffer
        show FixedWindow.Metered _ _ _ (List.filterMap _ (_ :: w.log)).length _ _
        rw [passage_length]
        exact hclock ▸ hoffer
      · exact h.same (passage_other hu _) rfl hclock (checkMessageRateLimit_others D (Ne.symm hu) w.state)
    | _ => exact h.same rfl rfl hclock (window_of_buckets (Server.act_buckets D (by simp) w.state))

end

/-- **Nobody floods the server.** In every run of a server that has just been started, whatever is
interleaved and whatever fails, and over however many connections the user sends: no more of his
messages are stored than a window's worth for each window that the time has room for, and for one
more. -/
theorem flood_bounded (D : Deployment) (users : Users) (conversations : Conversations)
    (messages : Messages) (clock : Nat) (moves : List (Move Call)) (userId : ObjectId)
    (hwindow : 0 < D.socketRateLimitWindowMs) :
    let w := ((chat D).run (Config.start (.boot users conversations messages clock)) moves).world
    w.state.sentBy userId ≤ (messages.docs.countP fun m => m.senderId == userId) +
      max D.socketRateLimitMax 1 * ((w.state.clock - clock) / D.socketRateLimitWindowMs + 1) := by
  intro w
  have hrationed : Rationed (.boot users conversations messages clock) userId w :=
    preserved_run (rationed_preserved D _ userId) ⟨List.nodup_nil, nofun, Nat.le_refl _⟩ moves
  have hstart : Limited D clock userId ⟨.boot users conversations messages clock, []⟩ :=
    .unopened (Nat.le_refl clock)
  have hlimited : Limited D clock userId w := preserved_run (limited_preserved D clock userId) hstart moves
  calc w.state.sentBy userId
      ≤ (Server.boot users conversations messages clock).sentBy userId +
        (w.log.filterMap (storing userId)).length := hrationed.stored
    _ ≤ _ := Nat.add_le_add_left (Nat.le_trans hrationed.length_le (hlimited.le hwindow)) _

/-- One message, by the writer of `capitalRun` (`Rooms/Announce.lean`): ten are the most. -/
theorem flood_bounded_capitals : ((chat .default).run (Config.start (.boot .empty
    ⟨[⟨.ending 10, .oneToOne, none, [.ending 1, .ending 2], none, 0, 0⟩], by decide⟩ .empty 0))
      capitalRun).world.state.sentBy writer.userId ≤ 10 := by
  have h := flood_bounded .default .empty
    ⟨[⟨.ending 10, .oneToOne, none, [.ending 1, .ending 2], none, 0, 0⟩], by decide⟩ .empty 0 capitalRun
    writer.userId (by decide)
  exact Nat.le_trans h (by decide +kernel)

end RealtimeChat
