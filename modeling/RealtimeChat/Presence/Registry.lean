import Mathlib.Data.List.Chain
import RealtimeChat.Presence.Status

/-! The map of active connections, taken by itself.

Connections are entered and removed in any order, some entered more than once. The calls
that return `true` tell when a user comes and goes: for each user they alternate,
beginning with a coming, and the last one says whether he is online (`counts_run`). -/
namespace RealtimeChat

inductive ConnectionChange where
  | added
  | removed
deriving DecidableEq

structure ConnectionCall where
  change : ConnectionChange
  userId : ObjectId
  socketId : SocketId
deriving DecidableEq

def ConnectionCall.run (call : ConnectionCall) (s : Server) : Bool × Server :=
  match call.change with
  | .added => addConnection call.userId call.socketId s
  | .removed => removeConnection call.userId call.socketId s

/-- The calls with what they returned, and the state after them. -/
def connectionCalls (s : Server) : List ConnectionCall → List (ConnectionCall × Bool) × Server
  | [] => ([], s)
  | call :: rest =>
    let result := call.run s
    let later := connectionCalls result.2 rest
    ((call, result.1) :: later.1, later.2)

/-- The changes of a user for which `true` was returned. -/
def signals (userId : ObjectId) (results : List (ConnectionCall × Bool)) : List ConnectionChange :=
  (results.filter fun r => r.1.userId == userId && r.2).map fun r => r.1.change

/-- The pairs of a user and a socket that are registered, by user. -/
abbrev Registrations := ObjectId → Finset SocketId

def Registrations.after (pairs : Registrations) (call : ConnectionCall) : Registrations :=
  Function.update pairs call.userId (match call.change with
    | .added => insert call.socketId (pairs call.userId)
    | .removed => (pairs call.userId).erase call.socketId)

/-- Only what is registered is removed. -/
def RemovesRegistered (pairs : Registrations) : List ConnectionCall → Prop
  | [] => True
  | call :: rest => (call.change = .removed → call.socketId ∈ pairs call.userId) ∧
    RemovesRegistered (pairs.after call) rest

/-- What the map owes after the calls. -/
structure Counts (s : Server) (calls : List ConnectionCall) : Prop where
  nonempty : ∀ userId, (connectionCalls s calls).2.activeConnections userId ≠ some ∅
  alternate : ∀ userId, (signals userId (connectionCalls s calls).1).IsChain (· ≠ ·)
  first : ∀ userId, ∀ change ∈ (signals userId (connectionCalls s calls).1).head?, change = .added
  last : ∀ userId, isUserOnline userId (connectionCalls s calls).2 = true ↔
    (signals userId (connectionCalls s calls).1).getLast? = some .added
  exact : ∀ userId, isUserOnline userId (connectionCalls s calls).2 = true ↔
    ∃ socketId, socketId ∈ calls.foldl Registrations.after (fun _ => ∅) userId
  /-- The calls for other users may as well not be made. -/
  apart : ∀ userId,
    (connectionCalls s calls).1.filter (fun r => r.1.userId == userId) =
      (connectionCalls s (calls.filter fun call => call.userId == userId)).1 ∧
    (connectionCalls s calls).2.activeConnections userId =
      (connectionCalls s (calls.filter fun call => call.userId == userId)).2.activeConnections userId

/-! ### One call -/

section
variable {s t : Server} {userId other : ObjectId}

theorem ConnectionCall.run_entry (call : ConnectionCall)
    (h : s.activeConnections call.userId = t.activeConnections call.userId) :
    (call.run s).1 = (call.run t).1 ∧
      (call.run s).2.activeConnections call.userId = (call.run t).2.activeConnections call.userId := by
  obtain ⟨change, userId, socketId⟩ := call
  cases change with
  | added =>
    simp only [run, addConnection]
    rw [h]
    cases t.activeConnections userId <;> simp
  | removed =>
    simp only [run, removeConnection]
    rw [h]
    cases ht : t.activeConnections userId with
    | none => exact ⟨rfl, h.trans rfl⟩
    | some sockets => simp

theorem ConnectionCall.run_other {call : ConnectionCall} (h : other ≠ call.userId) (s : Server) :
    (call.run s).2.activeConnections other = s.activeConnections other := by
  obtain ⟨change, userId, socketId⟩ := call
  cases change with
  | added =>
    simp only [run, addConnection]
    cases s.activeConnections userId <;> simp [h]
  | removed =>
    simp only [run, removeConnection]
    cases s.activeConnections userId <;> simp [h]

theorem ConnectionCall.run_nonempty (call : ConnectionCall)
    (h : ∀ userId, s.activeConnections userId ≠ some ∅) (userId : ObjectId) :
    (call.run s).2.activeConnections userId ≠ some ∅ := by
  by_cases hu : userId = call.userId
  · subst hu
    obtain ⟨change, userId, socketId⟩ := call
    cases change with
    | added =>
      simp only [run, addConnection]
      cases s.activeConnections userId <;> simp
    | removed =>
      simp only [run, removeConnection]
      cases hs : s.activeConnections userId with
      | none => simp [hs]
      | some sockets =>
        simp only [Function.update_self]
        split
        · simp
        · rename_i hcard
          simpa using hcard
  · rw [run_other hu]
    exact h userId

/-- The map holds what is registered. -/
theorem ConnectionCall.run_registered (call : ConnectionCall) {pairs : Registrations}
    (h : ∀ userId, registered userId s = pairs userId) (userId : ObjectId) :
    registered userId (call.run s).2 = pairs.after call userId := by
  obtain ⟨change, u, socketId⟩ := call
  rw [Registrations.after]
  cases change with
  | added =>
    rw [show (run ⟨.added, u, socketId⟩ s) = addConnection u socketId s from rfl,
      registered_addConnection, Function.update_apply, h, h]
  | removed =>
    rw [show (run ⟨.removed, u, socketId⟩ s) = removeConnection u socketId s from rfl,
      registered_removeConnection, Function.update_apply, h, h]

/-! ### What the last change was -/

def lastChange (userId : ObjectId) (s : Server) : ConnectionChange :=
  if isUserOnline userId s then .added else .removed

theorem lastChange_eq (userId : ObjectId) (s : Server) :
    lastChange userId s = if registered userId s = ∅ then .removed else .added := by
  have honline := isUserOnline_iff userId s
  rw [lastChange]
  by_cases hempty : registered userId s = ∅
  · rw [hempty] at honline
    simp [hempty, honline]
  · rw [if_pos (honline.mpr (Finset.nonempty_iff_ne_empty.mpr hempty)), if_neg hempty]

theorem lastChange_other {call : ConnectionCall} (h : other ≠ call.userId) (s : Server) :
    lastChange other (call.run s).2 = lastChange other s := by
  rw [lastChange, isUserOnline, ConnectionCall.run_other h, lastChange, isUserOnline]

/-- `true` is returned exactly if the user comes or goes, where what is removed was there. -/
theorem ConnectionCall.run_signal (call : ConnectionCall)
    (h : call.change = .removed → call.socketId ∈ registered call.userId s) :
    lastChange call.userId (call.run s).2 =
        (if (call.run s).1 then call.change else lastChange call.userId s) ∧
      ((call.run s).1 = true → lastChange call.userId s ≠ call.change) := by
  obtain ⟨change, userId, socketId⟩ := call
  cases change with
  | added =>
    show lastChange userId (addConnection userId socketId s).2 =
        (if (addConnection userId socketId s).1 then .added else lastChange userId s) ∧ _
    have hafter := registered_addConnection userId userId socketId s
    rw [if_pos rfl] at hafter
    have hfirst : (addConnection userId socketId s).1 = decide (registered userId s = ∅) :=
      Bool.eq_iff_iff.mpr (addConnection_first.trans decide_eq_true_iff.symm)
    rw [lastChange_eq, lastChange_eq, hafter, show (run ⟨.added, userId, socketId⟩ s) =
      addConnection userId socketId s from rfl, hfirst]
    by_cases hempty : registered userId s = ∅ <;> simp [hempty]
  | removed =>
    show lastChange userId (removeConnection userId socketId s).2 =
        (if (removeConnection userId socketId s).1 then .removed else lastChange userId s) ∧ _
    have hafter := registered_removeConnection userId userId socketId s
    rw [if_pos rfl] at hafter
    have hlast : (removeConnection userId socketId s).1 =
        decide ((registered userId s).erase socketId = ∅) :=
      Bool.eq_iff_iff.mpr (removeConnection_last.trans decide_eq_true_iff.symm)
    have hthere : registered userId s ≠ ∅ := Finset.ne_empty_of_mem (h rfl)
    rw [lastChange_eq, lastChange_eq, hafter, show (run ⟨.removed, userId, socketId⟩ s) =
      removeConnection userId socketId s from rfl, hlast]
    by_cases hempty : (registered userId s).erase socketId = ∅ <;> simp [hempty, hthere]

/-! ### All calls -/

theorem connectionCalls_cons (call : ConnectionCall) (rest : List ConnectionCall) (s : Server) :
    connectionCalls s (call :: rest) = ((call, (call.run s).1) :: (connectionCalls (call.run s).2 rest).1,
      (connectionCalls (call.run s).2 rest).2) := rfl

theorem connectionCalls_nonempty (h : ∀ userId, s.activeConnections userId ≠ some ∅)
    (calls : List ConnectionCall) (userId : ObjectId) :
    (connectionCalls s calls).2.activeConnections userId ≠ some ∅ := by
  induction calls generalizing s with
  | nil => exact h userId
  | cons call rest ih => exact ih (call.run_nonempty h)

theorem connectionCalls_registered {pairs : Registrations} (h : ∀ userId, registered userId s = pairs userId)
    (calls : List ConnectionCall) (userId : ObjectId) :
    registered userId (connectionCalls s calls).2 = calls.foldl Registrations.after pairs userId := by
  induction calls generalizing s pairs with
  | nil => exact h userId
  | cons call rest ih => exact ih (call.run_registered h)

/-- The calls for one user, from states with the same entry for him. -/
theorem connectionCalls_apart (h : s.activeConnections userId = t.activeConnections userId)
    (calls : List ConnectionCall) :
    (connectionCalls s calls).1.filter (fun r => r.1.userId == userId) =
      (connectionCalls t (calls.filter fun call => call.userId == userId)).1 ∧
    (connectionCalls s calls).2.activeConnections userId =
      (connectionCalls t (calls.filter fun call => call.userId == userId)).2.activeConnections userId := by
  induction calls generalizing s t with
  | nil => exact ⟨rfl, h⟩
  | cons call rest ih =>
    by_cases hu : call.userId = userId
    · subst hu
      obtain ⟨hresult, hentry⟩ := call.run_entry h
      obtain ⟨hresults, hentries⟩ := ih hentry
      rw [List.filter_cons_of_pos (by simp), connectionCalls_cons, connectionCalls_cons,
        List.filter_cons_of_pos (by simp), hresults, hresult]
      exact ⟨rfl, hentries⟩
    · rw [List.filter_cons_of_neg (by simpa using hu), connectionCalls_cons,
        List.filter_cons_of_neg (by simpa using hu)]
      exact ih ((ConnectionCall.run_other (Ne.symm hu) s).trans h)

/-- The signals of a user lead from what his last change was to what it is. -/
theorem signals_chain {pairs : Registrations} (h : ∀ userId, registered userId s = pairs userId)
    {calls : List ConnectionCall} (hremoves : RemovesRegistered pairs calls) (userId : ObjectId) :
    (lastChange userId s :: signals userId (connectionCalls s calls).1).IsChain (· ≠ ·) ∧
      (lastChange userId s :: signals userId (connectionCalls s calls).1).getLast? =
        some (lastChange userId (connectionCalls s calls).2) := by
  induction calls generalizing s pairs with
  | nil => exact ⟨.singleton _, rfl⟩
  | cons call rest ih =>
    obtain ⟨hremoves, hrest⟩ := hremoves
    obtain ⟨hchain, hlast⟩ := ih (call.run_registered h) hrest
    rw [connectionCalls_cons]
    by_cases hu : call.userId = userId
    · subst hu
      obtain ⟨hafter, hsignal⟩ := call.run_signal fun hr => h call.userId ▸ hremoves hr
      rw [hafter] at hchain hlast
      cases hresult : (call.run s).1 with
      | true =>
        rw [hresult, if_pos rfl] at hchain hlast
        rw [signals, List.filter_cons_of_pos (by simp), List.map_cons, List.isChain_cons_cons,
          List.getLast?_cons_cons]
        exact ⟨⟨hsignal hresult, hchain⟩, hlast⟩
      | false =>
        rw [hresult, if_neg Bool.false_ne_true] at hchain hlast
        rw [signals, List.filter_cons_of_neg (by simp)]
        exact ⟨hchain, hlast⟩
    · rw [lastChange_other (Ne.symm hu)] at hchain hlast
      rw [signals, List.filter_cons_of_neg (by simp [hu])]
      exact ⟨hchain, hlast⟩

end

/-- **The map counts connections**: the first one of a user and the last one are told,
in turn, whatever is called for others. -/
theorem counts_run {s : Server} (hboot : ∀ userId, s.activeConnections userId = none)
    {calls : List ConnectionCall} (hremoves : RemovesRegistered (fun _ => ∅) calls) : Counts s calls := by
  have hnone : ∀ userId, registered userId s = ∅ := by
    intro userId
    rw [registered, hboot]
    rfl
  have hstart : ∀ userId, lastChange userId s = .removed := by
    intro userId
    rw [lastChange_eq, if_pos (hnone userId)]
  have honline : ∀ userId, isUserOnline userId (connectionCalls s calls).2 = true ↔
      lastChange userId (connectionCalls s calls).2 = .added := by
    intro userId
    rw [lastChange]
    cases isUserOnline userId (connectionCalls s calls).2 <;> simp
  refine ⟨connectionCalls_nonempty (by simp [hboot]) calls, fun userId => ?_, fun userId => ?_,
    fun userId => ?_, fun userId => ?_, fun userId => connectionCalls_apart rfl calls⟩
  · exact (signals_chain hnone hremoves userId).1.tail
  · intro change hchange
    have hchain := (signals_chain hnone hremoves userId).1.rel_head? hchange
    rw [hstart] at hchain
    cases change with
    | added => rfl
    | removed => exact absurd rfl hchain
  · have hlast := (signals_chain hnone hremoves userId).2
    rw [honline]
    rw [hstart, List.getLast?_cons] at hlast
    rw [← Option.some.inj hlast]
    cases (signals userId (connectionCalls s calls).1).getLast? with
    | none => simp
    | some change => simp
  · rw [isUserOnline_iff, connectionCalls_registered hnone]
    exact Iff.rfl

/-- Two tabs of one user, one of them entered twice, and a tab of another user. -/
theorem counts_run_tabs : Counts (.boot .empty .empty .empty 0)
    [⟨.added, .ending 1, .ofChar 'a'⟩, ⟨.added, .ending 1, .ofChar 'b'⟩,
      ⟨.added, .ending 2, .ofChar 'c'⟩, ⟨.added, .ending 1, .ofChar 'b'⟩,
      ⟨.removed, .ending 1, .ofChar 'a'⟩, ⟨.removed, .ending 2, .ofChar 'c'⟩,
      ⟨.removed, .ending 1, .ofChar 'b'⟩] :=
  counts_run (fun _ => rfl) (by
    refine ⟨nofun, nofun, nofun, nofun, fun _ => ?_, fun _ => ?_, fun _ => ?_, trivial⟩ <;> decide)

end RealtimeChat
