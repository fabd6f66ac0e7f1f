import RealtimeChat.Handlers.Lawful
import RealtimeChat.Presence.Connections

/-! Whether what is stored and what is told of a user's presence is right at rest.

`addConnection` and `removeConnection` see at once whether a user has come or gone. The
handler then writes the status, and tells it, after queries that take as long as they
take. What stays is what the last handler to get there brought, and that is right
exactly when no change of the other kind has come after that handler's own
(`status_iff`, `told_iff`). -/
namespace RealtimeChat
open Data (Text Collection)
open Zod (Value)
open Async Async.System

/-! ### Changes, writes and events -/

def presenceChange (userId : ObjectId) : Event chatInterface Failure Call → Option (Nat × UserStatus)
  | .acted pid (.addConnection u _) true => if u = userId then some (pid, .online) else none
  | .acted pid (.removeConnection u _) true => if u = userId then some (pid, .offline) else none
  | _ => none

def statusWrite (userId : ObjectId) : Event chatInterface Failure Call → Option (Nat × UserStatus)
  | .answered pid (.userUpdate u status _) (.ok _) => if u = userId then some (pid, status) else none
  | _ => none

def presenceTold (userId : ObjectId) : Event chatInterface Failure Call → Option (Nat × UserStatus)
  | .acted pid (.emit _ (.userOnline p)) _ => if p.userId = userId then some (pid, .online) else none
  | .acted pid (.emit _ (.userOffline p)) _ => if p.userId = userId then some (pid, .offline) else none
  | _ => none

/-- The tasks that have found their user come or gone, latest first. -/
def presenceChanges (userId : ObjectId) (log : Log) : List (Nat × UserStatus) :=
  log.filterMap (presenceChange userId)

/-- The writes of the user's status that have been carried out. -/
def statusWrites (userId : ObjectId) (log : Log) : List (Nat × UserStatus) :=
  log.filterMap (statusWrite userId)

/-- The presence events about the user that have been emitted into rooms. -/
def presenceEvents (userId : ObjectId) (log : Log) : List (Nat × UserStatus) :=
  log.filterMap (presenceTold userId)

/-- What the latest entry says; `initial` before any. -/
def latest (initial : UserStatus) : List (Nat × UserStatus) → UserStatus
  | [] => initial
  | (_, status) :: _ => status

/-- The task has found its user come or gone, and if that changed again after it, then the
last time back to the same. -/
def NotSuperseded (pid : Nat) (status : UserStatus) (changes : List (Nat × UserStatus)) : Prop :=
  ∀ later earlier, changes = later ++ (pid, status) :: earlier → latest status later = status

theorem notSuperseded_iff {pid : Nat} {status : UserStatus} {changes : List (Nat × UserStatus)}
    (h : (pid, status) ∈ changes) :
    NotSuperseded pid status changes ↔ latest .offline changes = status := by
  have hlatest : ∀ later earlier, changes = later ++ (pid, status) :: earlier →
      latest .offline changes = latest status later := by
    intro later earlier heq
    subst heq
    cases later <;> rfl
  constructor
  · intro h'
    obtain ⟨later, earlier, heq⟩ := List.append_of_mem h
    rw [hlatest later earlier heq]
    exact h' later earlier heq
  · intro h' later earlier heq
    rw [← hlatest later earlier heq]
    exact h'

/-- Some socket of the user is connected. -/
def HasSocket (userId : ObjectId) (s : Server) : Prop := ∃ socket ∈ s.sockets, socket.userId = userId

/-- The status stored for the user says whether some socket of theirs is connected. -/
def StatusRight (userId : ObjectId) (s : Server) : Prop :=
  ∃ user ∈ s.users.docs, user.id = userId ∧ (user.status = .online ↔ HasSocket userId s)

/-- So does the last presence event about the user, if there has been any. -/
def ToldRight (userId : ObjectId) (w : World chatInterface Server Failure Call) : Prop :=
  ∀ pid status rest, presenceEvents userId w.log = (pid, status) :: rest →
    (status = .online ↔ HasSocket userId w.state)

/-- The last write carried out has not been superseded. Where there was none, the user is
still, or again, what the status at the start says. -/
def WrittenInTurn (userId : ObjectId) (initial : UserStatus) (log : Log) : Prop :=
  match statusWrites userId log with
  | [] => latest .offline (presenceChanges userId log) = initial
  | (pid, status) :: _ => NotSuperseded pid status (presenceChanges userId log)

def ToldInTurn (userId : ObjectId) (log : Log) : Prop :=
  ∀ pid status rest, presenceEvents userId log = (pid, status) :: rest →
    NotSuperseded pid status (presenceChanges userId log)

/-! ### Whose they are -/

theorem mem_presenceChanges {pid : Nat} {socket : Socket} {status : UserStatus} {log : Log}
    (h : changed socket status ∈ deeds pid log) :
    (pid, status) ∈ presenceChanges socket.userId log := by
  cases status with
  | online => exact List.mem_filterMap.mpr ⟨_, mem_deeds_acted.mp h, if_pos rfl⟩
  | offline => exact List.mem_filterMap.mpr ⟨_, mem_deeds_acted.mp h, if_pos rfl⟩

/-- A status is written after a change, and so is it told. -/
theorem Call.law_userUpdate {call : Call} {before : Deeds} {u : ObjectId} {status : UserStatus}
    {lastSeen : Option Nat} {r : Except Failure (Option User)}
    (h : call.law before (.answered (.userUpdate u status lastSeen) r)) :
    ∃ socket, socket.userId = u ∧ changed socket status ∈ before := by
  have hasks := Call.law_asks h
  cases call with
  | connect socket =>
    obtain ⟨rfl, rfl, hchanged⟩ := h
    exact ⟨socket, rfl, hchanged⟩
  | disconnect socket =>
    obtain ⟨rfl, rfl, hchanged⟩ := h
    exact ⟨socket, rfl, hchanged⟩
  | event socket name args id => cases name <;> exact hasks.elim
  | _ => exact hasks.elim

theorem Call.law_presenceEvent {call : Call} {before : Deeds} {room : Text} {status : UserStatus}
    {p : PresenceEvent} {receivers : List Socket}
    (h : call.law before (.acted (.emit room (presenceEvent status p)) receivers)) :
    ∃ socket, socket.userId = p.userId ∧ changed socket status ∈ before := by
  have hacts := Call.law_acts h
  have hinj : ∀ {status' p'}, presenceEvent status p = presenceEvent status' p' →
      status = status' ∧ p = p' := by
    intro status' p' heq
    cases status <;> cases status' <;> cases heq <;> exact ⟨rfl, rfl⟩
  cases call with
  | connect socket =>
    obtain ⟨p', hevent, huser, -, hchanged⟩ := h
    obtain ⟨rfl, rfl⟩ := hinj hevent
    exact ⟨socket, huser.symm, hchanged⟩
  | disconnect socket =>
    obtain ⟨p', hevent, huser, -, hchanged⟩ := h
    obtain ⟨rfl, rfl⟩ := hinj hevent
    exact ⟨socket, huser.symm, hchanged⟩
  | event socket name args id => cases name <;> cases status <;> exact hacts.elim
  | _ => cases status <;> exact hacts.elim

section
variable {D : Deployment} {c : Config chatInterface Server Failure Call Response}
  {userId : ObjectId} {pid : Nat} {status : UserStatus}

theorem presenceChanges_of_suffix {later earlier : Log}
    (h : (pid, status) ∈ presenceChanges userId earlier) (e : Event chatInterface Failure Call) :
    (pid, status) ∈ presenceChanges userId (later ++ e :: earlier) := by
  obtain ⟨e', he', hchange⟩ := List.mem_filterMap.mp h
  exact List.mem_filterMap.mpr ⟨e', List.mem_append_right _ (.tail _ he'), hchange⟩

/-- A task that has written a status has found its user so. -/
theorem Behaved.written (h : Behaved c) (hmem : (pid, status) ∈ statusWrites userId c.world.log) :
    (pid, status) ∈ presenceChanges userId c.world.log := by
  obtain ⟨e, he, hwrite⟩ := List.mem_filterMap.mp hmem
  obtain ⟨later, earlier, hlog⟩ := List.append_of_mem he
  unfold statusWrite at hwrite
  split at hwrite
  · split at hwrite
    · obtain ⟨rfl, rfl⟩ := Prod.mk.inj (Option.some.inj hwrite)
      rename_i hu
      subst hu
      obtain ⟨call, task, -, hlaw⟩ := h.law hlog rfl
      obtain ⟨socket, rfl, hchanged⟩ := Call.law_userUpdate hlaw
      rw [hlog]
      exact presenceChanges_of_suffix (mem_presenceChanges hchanged) _
    · cases hwrite
  · cases hwrite

/-- A task that has told of a presence has found its user so. -/
theorem Behaved.told (h : Behaved c) (hmem : (pid, status) ∈ presenceEvents userId c.world.log) :
    (pid, status) ∈ presenceChanges userId c.world.log := by
  obtain ⟨e, he, htold⟩ := List.mem_filterMap.mp hmem
  obtain ⟨later, earlier, hlog⟩ := List.append_of_mem he
  obtain ⟨room, p, receivers, rfl, rfl⟩ : ∃ room p receivers,
      e = .acted pid (.emit room (presenceEvent status p)) receivers ∧ p.userId = userId := by
    unfold presenceTold at htold
    split at htold
    · split at htold
      · cases htold
        exact ⟨_, _, _, rfl, by assumption⟩
      · cases htold
    · split at htold
      · cases htold
        exact ⟨_, _, _, rfl, by assumption⟩
      · cases htold
    · cases htold
  obtain ⟨call, task, -, hlaw⟩ := h.law hlog rfl
  obtain ⟨socket, huser, hchanged⟩ := Call.law_presenceEvent hlaw
  rw [hlog, ← huser]
  exact presenceChanges_of_suffix (mem_presenceChanges hchanged) _

end

/-! ### The map and the store -/

/-- The map holds a socket of the user exactly when the last change was a coming. -/
def Counted (userId : ObjectId) (w : World chatInterface Server Failure Call) : Prop :=
  (registered userId w.state).Nonempty ↔
    latest .offline (presenceChanges userId w.log) = .online

theorem addConnection_first {userId : ObjectId} {id : SocketId} {s : Server} :
    (addConnection userId id s).1 = true ↔ registered userId s = ∅ := by
  unfold addConnection registered
  cases s.activeConnections userId <;> simp

theorem removeConnection_last {userId : ObjectId} {id : SocketId} {s : Server} :
    (removeConnection userId id s).1 = true ↔ (registered userId s).erase id = ∅ := by
  unfold removeConnection registered
  cases s.activeConnections userId <;> simp

theorem presenceChange_other {a : Action} (h : LeavesMap a) (userId : ObjectId) (pid : Nat)
    (r : a.Reply) : presenceChange userId (.acted pid a r) = none := by
  unfold presenceChange
  split
  · rename_i heq
    cases heq
    exact absurd rfl (h _ _).1
  · rename_i heq
    cases heq
    exact absurd rfl (h _ _).2
  · rfl

section
variable {D : Deployment} {userId : ObjectId} {pid : Nat} {w : World chatInterface Server Failure Call}

theorem Counted.add (h : Counted userId w) (u : ObjectId) (id : SocketId) :
    Counted userId ((chat D).perform pid (.addConnection u id) w) := by
  unfold Counted at h ⊢
  show (registered userId (addConnection u id w.state).2).Nonempty ↔ latest .offline
    (presenceChanges userId (.acted pid (.addConnection u id) (addConnection u id w.state).1 :: w.log)) = _
  rw [registered_addConnection, presenceChanges, List.filterMap_cons]
  by_cases hu : userId = u
  · subst hu
    rw [if_pos rfl]
    refine iff_of_true (Finset.insert_nonempty _ _) ?_
    cases hfirst : (addConnection userId id w.state).1 with
    | true => simp [presenceChange, latest]
    | false =>
      apply h.mp
      rw [Finset.nonempty_iff_ne_empty]
      intro hempty
      rw [addConnection_first.mpr hempty] at hfirst
      cases hfirst
  · rw [if_neg hu]
    cases (addConnection u id w.state).1 with
    | true =>
      simp only [presenceChange, if_neg (Ne.symm hu)]
      exact h
    | false => exact h

theorem Counted.remove (h : Counted userId w) (u : ObjectId) (id : SocketId) :
    Counted userId ((chat D).perform pid (.removeConnection u id) w) := by
  unfold Counted at h ⊢
  show (registered userId (removeConnection u id w.state).2).Nonempty ↔ latest .offline
    (presenceChanges userId (.acted pid (.removeConnection u id) (removeConnection u id w.state).1 :: w.log)) = _
  rw [registered_removeConnection, presenceChanges, List.filterMap_cons]
  by_cases hu : userId = u
  · subst hu
    rw [if_pos rfl]
    cases hlast : (removeConnection userId id w.state).1 with
    | true =>
      rw [removeConnection_last.mp hlast]
      simp [presenceChange, latest]
    | false =>
      have hne : ((registered userId w.state).erase id).Nonempty := by
        rw [Finset.nonempty_iff_ne_empty]
        intro hempty
        rw [removeConnection_last.mpr hempty] at hlast
        cases hlast
      exact iff_of_true hne (h.mp (hne.mono (Finset.erase_subset _ _)))
  · rw [if_neg hu]
    cases (removeConnection u id w.state).1 with
    | true =>
      simp only [presenceChange, if_neg (Ne.symm hu)]
      exact h
    | false => exact h

end

theorem Counted.same {userId : ObjectId} {w w' : World chatInterface Server Failure Call}
    (h : Counted userId w) {e : Event chatInterface Failure Call}
    (he : presenceChange userId e = none) (hlog : w'.log = e :: w.log)
    (hmap : w'.state.activeConnections = w.state.activeConnections) : Counted userId w' := by
  unfold Counted at h ⊢
  rw [hlog, presenceChanges, List.filterMap_cons_none he, registered, hmap]
  exact h

theorem counted_preserved (D : Deployment) (userId : ObjectId) :
    (chat D).Preserves Call.law (Counted userId) where
  acts := by
    intro pid call a w h _ _
    have hother : LeavesMap a → Counted userId ((chat D).perform pid a w) := by
      intro ha
      exact h.same (presenceChange_other ha userId pid _) rfl (Server.act_activeConnections D ha w.state)
    cases a with
    | addConnection u id => exact h.add u id
    | removeConnection u id => exact h.remove u id
    | _ => exact hother (by simp [LeavesMap])
  answers h _ _ := h.same rfl rfl (Server.answer_sameProcess D _ _).activeConnections
  rejects h _ _ := h.same rfl rfl rfl
  arrives h _ ha := h.same rfl rfl (accept_sameBehind ha).activeConnections
  passes h := h

/-- What is stored of each user is the last status written, or the first. -/
def StatusStored (start : Users) (w : World chatInterface Server Failure Call) : Prop :=
  ∀ user ∈ start.docs, ∃ user' ∈ w.state.users.docs, user'.id = user.id ∧
    user'.status = latest user.status (statusWrites user.id w.log)

theorem StatusStored.same {start : Users} {w w' : World chatInterface Server Failure Call}
    (h : StatusStored start w) {e : Event chatInterface Failure Call}
    (he : ∀ userId, statusWrite userId e = none) (hlog : w'.log = e :: w.log)
    (husers : w'.state.users = w.state.users) : StatusStored start w' := by
  intro user huser
  rw [hlog, statusWrites, List.filterMap_cons_none (he user.id), husers]
  exact h user huser

theorem statusStored_preserved (D : Deployment) (start : Users) :
    (chat D).Preserves Call.law (StatusStored start) where
  acts h _ _ := h.same (fun _ => rfl) rfl (Server.act_sameStore D _ _).users
  rejects := by
    intro pid call q w h _ _
    refine h.same (fun userId => ?_) rfl rfl
    cases q <;> rfl
  arrives h _ ha := h.same (fun _ => rfl) rfl (accept_sameBehind ha).users
  passes h := h
  answers := by
    intro pid call q w h _ _
    by_cases hq : ∃ u status lastSeen, q = .userUpdate u status lastSeen
    · obtain ⟨u, status, lastSeen, rfl⟩ := hq
      intro user huser
      obtain ⟨user', huser', hid, hstatus⟩ := h user huser
      have hwritten : (if user'.id == u then {user' with status, lastSeen := lastSeen.getD user'.lastSeen}
          else user') ∈ ((chat D).respond pid (.userUpdate u status lastSeen) w).state.users.docs :=
        List.mem_map_of_mem huser'
      refine ⟨_, hwritten, ?_⟩
      show _ ∧ _ = latest user.status (statusWrites user.id (.answered pid _ (.ok _) :: w.log))
      rw [statusWrites, List.filterMap_cons]
      by_cases hu : u = user.id
      · simp [statusWrite, hu, hid, latest]
      · have hne : (user'.id == u) = false := by
          rw [hid]
          simpa using Ne.symm hu
        simp only [statusWrite, if_neg hu, hne]
        exact ⟨hid, hstatus⟩
    · refine h.same (fun userId => ?_) rfl
        (Server.answer_users D (fun u status lastSeen heq => hq ⟨u, status, lastSeen, heq⟩) _)
      unfold statusWrite
      split
      · rename_i heq
        injection heq with _ hq'
        exact absurd ⟨_, _, _, hq'⟩ hq
      · rfl

/-! ### At rest -/

theorem online_iff_online {a b : UserStatus} : (a = .online ↔ b = .online) ↔ b = a := by
  cases a <;> cases b <;> decide

section
variable (D : Deployment) (users : Users) (conversations : Conversations) (messages : Messages)
  (clock : Nat) (moves : List (Move Call))

/-- A user has a connected socket exactly when the last change was a coming. -/
theorem hasSocket_iff (h : Each Orderly ((chat D).run
      (Config.start (.boot users conversations messages clock)) moves).world.log)
    (hidle : Idle ((chat D).run (Config.start (.boot users conversations messages clock)) moves))
    (userId : ObjectId) :
    HasSocket userId ((chat D).run
        (Config.start (.boot users conversations messages clock)) moves).world.state ↔
      latest .offline (presenceChanges userId ((chat D).run
        (Config.start (.boot users conversations messages clock)) moves).world.log) = .online := by
  have haccurate := presence_run D users conversations messages clock moves h hidle userId
  have hcounted : Counted userId ((chat D).run
      (Config.start (.boot users conversations messages clock)) moves).world :=
    preserved_run (counted_preserved D userId) (by simp [Counted, registered, Server.boot, presenceChanges, latest])
      moves
  rw [HasSocket, ← haccurate.2, isUserOnline_iff]
  exact hcounted

/-- **The status stored for a user is right at rest** exactly when the last write of it
comes from a handler that has not been superseded. -/
theorem status_iff (user : User) (huser : user ∈ users.docs)
    (h : Each Orderly ((chat D).run
      (Config.start (.boot users conversations messages clock)) moves).world.log)
    (hidle : Idle ((chat D).run (Config.start (.boot users conversations messages clock)) moves)) :
    StatusRight user.id ((chat D).run
        (Config.start (.boot users conversations messages clock)) moves).world.state ↔
      WrittenInTurn user.id user.status ((chat D).run
        (Config.start (.boot users conversations messages clock)) moves).world.log := by
  have hsocket := hasSocket_iff D users conversations messages clock moves h hidle user.id
  have hbehaved := behaved_run D (.boot users conversations messages clock) moves
  have hstored : StatusStored users ((chat D).run
      (Config.start (.boot users conversations messages clock)) moves).world :=
    preserved_run (statusStored_preserved D users) (fun user huser => ⟨user, huser, rfl, rfl⟩) moves
  generalize (chat D).run (Config.start (.boot users conversations messages clock)) moves = c at *
  obtain ⟨user', huser', hid, hstatus⟩ := hstored user huser
  have hright : StatusRight user.id c.world.state ↔ (user'.status = .online ↔
      latest .offline (presenceChanges user.id c.world.log) = .online) := by
    rw [← hsocket]
    constructor
    · intro h
      obtain ⟨other, hother, hid', hstatus'⟩ := h
      rw [c.world.state.users.eq_of_key hother huser' (hid'.trans hid.symm)] at hstatus'
      exact hstatus'
    · exact fun h => ⟨user', huser', hid, h⟩
  rw [hright, online_iff_online, hstatus, WrittenInTurn]
  cases hwrites : statusWrites user.id c.world.log with
  | nil => exact Iff.rfl
  | cons write rest =>
    obtain ⟨pid, status⟩ := write
    have hwritten : (pid, status) ∈ statusWrites user.id c.world.log := by
      rw [hwrites]
      exact List.mem_cons_self
    exact (notSuperseded_iff (hbehaved.written hwritten)).symm

/-- **The last presence event about a user is right at rest** exactly when it comes from a
handler that has not been superseded. -/
theorem told_iff (userId : ObjectId)
    (h : Each Orderly ((chat D).run
      (Config.start (.boot users conversations messages clock)) moves).world.log)
    (hidle : Idle ((chat D).run (Config.start (.boot users conversations messages clock)) moves)) :
    ToldRight userId ((chat D).run
        (Config.start (.boot users conversations messages clock)) moves).world ↔
      ToldInTurn userId ((chat D).run
        (Config.start (.boot users conversations messages clock)) moves).world.log := by
  have hsocket := hasSocket_iff D users conversations messages clock moves h hidle userId
  have hbehaved := behaved_run D (.boot users conversations messages clock) moves
  generalize (chat D).run (Config.start (.boot users conversations messages clock)) moves = c at *
  refine forall_congr' fun pid => forall_congr' fun status => forall_congr' fun rest =>
    forall_congr' fun hevents => ?_
  rw [hsocket, online_iff_online]
  exact (notSuperseded_iff (hbehaved.told (hevents ▸ List.mem_cons_self))).symm

end

/-! Ann has one tab open, closes it and opens another, and the handler of the first is
the last to get through. -/

def reconnectUser : User := ⟨.ending 1, "ann".toList, "ann@x.y".toList, .offline, 0⟩

def reconnectServer : Server := .boot (.single reconnectUser)
  (.single ⟨.ending 10, .oneToOne, none, [.ending 1, .ending 2], none, 0, 0⟩) .empty 0

def reconnectMoves : List (Move Call) :=
  let first : Socket := ⟨.ofChar 'a', .ending 1, "ann".toList⟩
  let second : Socket := ⟨.ofChar 'b', .ending 1, "ann".toList⟩
  [.arrive (.connect first)] ++ Move.rounds 0 4 ++
    [.arrive (.disconnect first), .arrive (.connect second)] ++ Move.rounds 2 4 ++ Move.rounds 1 2

def reconnectRun : Config chatInterface Server Failure Call Response :=
  (chat .default).run (Config.start reconnectServer) reconnectMoves

theorem reconnect_connected : HasSocket (.ending 1) reconnectRun.world.state :=
  ⟨⟨.ofChar 'b', .ending 1, "ann".toList⟩, by decide +kernel, rfl⟩

theorem status_iff_reconnect : StatusRight reconnectUser.id reconnectRun.world.state ↔
    WrittenInTurn reconnectUser.id reconnectUser.status reconnectRun.world.log :=
  status_iff .default _ _ .empty 0 reconnectMoves reconnectUser (.head _) (by decide +kernel)
    (by decide +kernel)

theorem reconnect_stored_offline : Each Orderly reconnectRun.world.log ∧
    (∀ entry ∈ reconnectRun.tasks, entry.task.isDone = true) ∧
    ¬ StatusRight (.ending 1) reconnectRun.world.state := by
  refine ⟨by decide +kernel, by decide +kernel, fun h => ?_⟩
  obtain ⟨user, huser, -, hstatus⟩ := h
  have hoffline : ∀ user ∈ reconnectRun.world.state.users.docs, user.status = .offline := by
    decide +kernel
  rw [hoffline user huser] at hstatus
  cases hstatus.mpr reconnect_connected

theorem told_iff_reconnect : ToldRight (.ending 1) reconnectRun.world ↔
    ToldInTurn (.ending 1) reconnectRun.world.log :=
  told_iff .default (.single reconnectUser) _ .empty 0 reconnectMoves (.ending 1)
    (by decide +kernel) (by decide +kernel)

theorem reconnect_told_offline : Each Orderly reconnectRun.world.log ∧
    (∀ entry ∈ reconnectRun.tasks, entry.task.isDone = true) ∧
    ¬ ToldRight (.ending 1) reconnectRun.world := by
  refine ⟨by decide +kernel, by decide +kernel, fun h => ?_⟩
  have hevents : presenceEvents (.ending 1) reconnectRun.world.log =
      [(1, .offline), (2, .online), (0, .online)] := by decide +kernel
  cases (h _ _ _ hevents).mpr reconnect_connected

end RealtimeChat
