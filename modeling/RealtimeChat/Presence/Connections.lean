import RealtimeChat.Async.Discipline
import RealtimeChat.Async.Trace
import RealtimeChat.Handlers.Footprint
import RealtimeChat.Model.Effects

/-! Whether the map of active connections holds exactly the connected sockets.

A socket is entered into the map only after its connect handler has joined the
rooms, and taken out as soon as its disconnect event fires. If it disconnects
before it has been entered, it is entered afterwards and stays; if the joining
fails, it is never entered. In every run without these two, the map is exact
whenever no connect handler is in flight (`presence_run`). -/
namespace RealtimeChat
open Data (Text)
open Zod (Value)
open Async Async.System

/-- The sockets that the map holds for a user. -/
def registered (userId : ObjectId) (s : Server) : Finset SocketId :=
  (s.activeConnections userId).getD ∅

/-- The connected sockets of a user. -/
def connected (userId : ObjectId) (s : Server) : Finset SocketId :=
  ((s.sockets.filter fun socket => socket.userId = userId).map Socket.id).toFinset

/-- The map holds for each user the connected sockets, and its answer says so. -/
def Accurate (s : Server) : Prop :=
  ∀ userId, registered userId s = connected userId s ∧
    (isUserOnline userId s = true ↔ ∃ socket ∈ s.sockets, socket.userId = userId)

def Call.connects : Call → Bool
  | .connect _ => true
  | _ => false

/-- No connect handler is in flight. -/
def Idle (c : Config chatInterface Server Failure Call Response) : Prop :=
  ∀ entry ∈ c.tasks, entry.call.connects = true → entry.task.isDone = true

/-- Whether the socket has disconnected. -/
def hasLeft (socket : Socket) (log : Log) : Bool :=
  (arrivals log).any fun
    | .disconnect other => other == socket
    | _ => false

/-- The socket whose connection the task handles. -/
def connectsOf (pid : Nat) (log : Log) : List Socket :=
  log.filterMap fun
    | .arrived pid' (.connect socket) => if pid' = pid then some socket else none
    | _ => none

/-- The task has entered its socket into the map. -/
def hasEntered (pid : Nat) (log : Log) : Bool :=
  log.any fun
    | .acted pid' (.addConnection _ _) _ => pid' == pid
    | _ => false

/-- A socket is entered into the map before it disconnects, and no query of a connect
handler fails before it has entered its socket, unless that has disconnected. -/
def Orderly : Event chatInterface Failure Call → Log → Prop
  | .acted pid (.addConnection _ _) _, earlier =>
    ∀ socket ∈ connectsOf pid earlier, hasLeft socket earlier = false
  | .answered pid _ (.error _), earlier =>
    ∀ socket ∈ connectsOf pid earlier,
      hasEntered pid earlier = true ∨ hasLeft socket earlier = true
  | _, _ => True

instance (e : Event chatInterface Failure Call) (earlier) : Decidable (Orderly e earlier) := by
  unfold Orderly
  split <;> infer_instance

theorem mem_connectsOf {pid : Nat} {socket : Socket} {log : Log}
    (h : .arrived pid (.connect socket) ∈ log) : socket ∈ connectsOf pid log :=
  List.mem_filterMap.mpr ⟨_, h, if_pos rfl⟩

theorem hasLeft_iff {socket : Socket} {log : Log} :
    hasLeft socket log = true ↔ ∃ pid, .arrived pid (.disconnect socket) ∈ log := by
  simp only [hasLeft, List.any_eq_true]
  constructor
  · intro h'
    obtain ⟨call, hcall, hs⟩ := h'
    obtain ⟨e, he, hc⟩ := List.mem_filterMap.mp hcall
    cases e with
    | arrived pid call' =>
      cases hc
      cases call with
      | disconnect other => exact ⟨pid, beq_iff_eq.mp hs ▸ he⟩
      | _ => cases hs
    | _ => cases hc
  · intro h'
    obtain ⟨pid, h⟩ := h'
    exact ⟨.disconnect socket, mem_arrivals h, beq_self_eq_true socket⟩

theorem hasEntered_iff {pid : Nat} {log : Log} :
    hasEntered pid log = true ↔ ∃ userId id r, .acted pid (.addConnection userId id) r ∈ log := by
  simp only [hasEntered, List.any_eq_true]
  constructor
  · intro h'
    obtain ⟨e, he, hp⟩ := h'
    cases e with
    | acted pid' a r =>
      cases a with
      | addConnection userId id => exact ⟨userId, id, r, beq_iff_eq.mp hp ▸ he⟩
      | _ => cases hp
    | _ => cases hp
  · intro h'
    obtain ⟨userId, id, r, h⟩ := h'
    exact ⟨_, h, beq_self_eq_true pid⟩

/-! ### The map -/

theorem mem_connected {userId : ObjectId} {s : Server} {id : SocketId} :
    id ∈ connected userId s ↔ ∃ socket ∈ s.sockets, socket.userId = userId ∧ socket.id = id := by
  simp [connected, and_assoc]

theorem isUserOnline_iff (userId : ObjectId) (s : Server) :
    isUserOnline userId s = true ↔ (registered userId s).Nonempty := by
  unfold isUserOnline registered
  cases s.activeConnections userId with
  | none => simp
  | some sockets => simp [Finset.card_pos]

theorem accurate_of_registered {s : Server} (h : ∀ userId, registered userId s = connected userId s) :
    Accurate s := by
  intro userId
  refine ⟨h userId, ?_⟩
  rw [isUserOnline_iff, h]
  constructor
  · intro h'
    obtain ⟨id, hid⟩ := h'
    obtain ⟨socket, hs, hu, _⟩ := mem_connected.mp hid
    exact ⟨socket, hs, hu⟩
  · intro h'
    obtain ⟨socket, hs, hu⟩ := h'
    exact ⟨socket.id, mem_connected.mpr ⟨socket, hs, hu, rfl⟩⟩

theorem registered_addConnection (userId other : ObjectId) (id : SocketId) (s : Server) :
    registered other (addConnection userId id s).2 =
      if other = userId then insert id (registered userId s) else registered other s := by
  unfold registered addConnection
  by_cases h : other = userId
  · subst h
    cases s.activeConnections other <;> simp
  · cases s.activeConnections userId <;> simp [h]

theorem registered_removeConnection (userId other : ObjectId) (id : SocketId) (s : Server) :
    registered other (removeConnection userId id s).2 =
      if other = userId then (registered userId s).erase id else registered other s := by
  unfold registered removeConnection
  by_cases h : other = userId
  · subst h
    cases hs : s.activeConnections other with
    | none => simp [hs]
    | some sockets =>
      simp only [if_true, Function.update_self]
      split
      · rename_i hcard
        exact (Finset.card_eq_zero.mp (by simpa using hcard)).symm
      · rfl
  · cases s.activeConnections userId <;> simp [h]

/-! ### What every step keeps -/

/-- The socket has been here and has left. -/
structure Gone (socket : Socket) (s : Server) : Prop where
  known : socket.id ∈ s.socketIds
  left : socket ∉ s.sockets

/-- The socket has been entered into the map, unless it has left. -/
structure Settled (socket : Socket) (s : Server) : Prop where
  known : socket.id ∈ s.socketIds
  entered : socket.id ∈ registered socket.userId s ∨ socket ∉ s.sockets

structure Attended (w : World chatInterface Server Failure Call) : Prop where
  known : ∀ socket ∈ w.state.sockets, socket.id ∈ w.state.socketIds
  distinct : (w.state.sockets.map Socket.id).Nodup
  leakless : ∀ userId, registered userId w.state ⊆ connected userId w.state
  announced : ∀ socket ∈ w.state.sockets, ∃ pid, .arrived pid (.connect socket) ∈ w.log
  stays : ∀ pid socket, .arrived pid (.connect socket) ∈ w.log →
    socket ∈ w.state.sockets ∨ ∃ pid', .arrived pid' (.disconnect socket) ∈ w.log
  leaves : ∀ pid socket, .arrived pid (.disconnect socket) ∈ w.log → Gone socket w.state

def presence : Discipline chatInterface Server Failure Call where
  inv := Attended
  rel w w' := ∀ socket, (Gone socket w.state → Gone socket w'.state) ∧
    (Settled socket w.state → Settled socket w'.state)
  assume := Each Orderly
  refl _ _ := ⟨id, id⟩
  trans h h' socket := ⟨(h' socket).1 ∘ (h socket).1, (h' socket).2 ∘ (h socket).2⟩
  earlier := And.right

section
variable (D : Deployment) {pid : Nat} {w w' : World chatInterface Server Failure Call}

theorem Attended.eq_of_id (hi : Attended w) {a b : Socket} (ha : a ∈ w.state.sockets)
    (hb : b ∈ w.state.sockets) (h : a.id = b.id) : a = b :=
  List.inj_on_of_nodup_map hi.distinct ha hb h

/-- The log has grown, but by no connect and no disconnect. -/
def Quiet (log log' : Log) : Prop :=
  ∃ new, log' = new ++ log ∧ ∀ pid socket,
    .arrived pid (.connect socket) ∉ new ∧ .arrived pid (.disconnect socket) ∉ new

theorem Quiet.cons {e : Event chatInterface Failure Call}
    {log : Log} (he : ∀ pid socket,
      e ≠ .arrived pid (.connect socket) ∧ e ≠ .arrived pid (.disconnect socket)) :
    Quiet log (e :: log) :=
  ⟨[e], rfl, fun pid socket =>
    ⟨fun h => (he pid socket).1 (List.mem_singleton.mp h).symm,
      fun h => (he pid socket).2 (List.mem_singleton.mp h).symm⟩⟩

/-- A step that leaves the sockets alone, only enters connected ones into the map, and is no
connect or disconnect. -/
theorem presence_keeps_entered (hi : Attended w) (hsockets : w'.state.sockets = w.state.sockets)
    (hids : w'.state.socketIds = w.state.socketIds)
    (hgrow : ∀ userId, registered userId w.state ⊆ registered userId w'.state)
    (hleak : ∀ userId, registered userId w'.state ⊆ connected userId w.state)
    (hlog : Quiet w.log w'.log) : presence.Keeps w w' := by
  obtain ⟨new, hlog, hnew⟩ := hlog
  have hgone : ∀ socket, Gone socket w.state → Gone socket w'.state := by
    intro socket hall
    obtain ⟨hk, hl⟩ := hall
    exact ⟨hids ▸ hk, hsockets ▸ hl⟩
  have hold : ∀ {e'}, e' ∈ w.log → e' ∈ w'.log := by
    intro e' h
    rw [hlog]
    exact List.mem_append_right _ h
  refine ⟨fun socket => ⟨hgone socket, fun ⟨hk, h⟩ => ⟨hids ▸ hk, ?_⟩⟩, ?_⟩
  · rw [hsockets]
    exact h.imp_left fun h => hgrow socket.userId h
  · constructor
    · rw [hsockets, hids]
      exact hi.known
    · rw [hsockets]
      exact hi.distinct
    · intro userId
      rw [connected, hsockets, ← connected]
      exact hleak userId
    · rw [hsockets]
      intro socket hs
      obtain ⟨pid, h⟩ := hi.announced socket hs
      exact ⟨pid, hold h⟩
    · intro pid socket h
      rw [hlog] at h
      have h := (List.mem_append.mp h).resolve_left (hnew pid socket).1
      rw [hsockets]
      exact (hi.stays pid socket h).imp_right fun ⟨pid', h'⟩ => ⟨pid', hold h'⟩
    · intro pid socket h
      rw [hlog] at h
      exact hgone socket (hi.leaves pid socket ((List.mem_append.mp h).resolve_left (hnew pid socket).2))

/-- A step that leaves the sockets and the map alone, and is no connect or disconnect. -/
theorem presence_keeps_same (hi : Attended w) (hsockets : w'.state.sockets = w.state.sockets)
    (hids : w'.state.socketIds = w.state.socketIds)
    (hmap : w'.state.activeConnections = w.state.activeConnections)
    (hlog : Quiet w.log w'.log) : presence.Keeps w w' := by
  have hregistered : ∀ userId, registered userId w'.state = registered userId w.state := by
    intro userId
    rw [registered, hmap, registered]
  refine presence_keeps_entered hi hsockets hids (fun userId => ?_) (fun userId => ?_) hlog
  · rw [hregistered]
  · rw [hregistered]
    exact hi.leakless userId

/-- The actions that do not touch the map. -/
def LeavesMap (a : Action) : Prop :=
  ∀ userId id, a ≠ .addConnection userId id ∧ a ≠ .removeConnection userId id

theorem presence_keeps_act (pid : Nat) (a : Action) (w : World chatInterface Server Failure Call)
    (ha : LeavesMap a) (hi : Attended w) : presence.Keeps w ((chat D).perform pid a w) :=
  presence_keeps_same hi (Server.act_sockets D a _) (Server.act_socketIds D a _)
    (Server.act_activeConnections D ha _) (.cons fun _ _ => ⟨nofun, nofun⟩)

theorem presence_keeps_respond (pid : Nat) (q : Query)
    (w : World chatInterface Server Failure Call) (hi : Attended w) :
    presence.Keeps w ((chat D).respond pid q w) := by
  have h := Server.answer_sameProcess D q w.state
  exact presence_keeps_same hi h.sockets h.socketIds h.activeConnections
    (.cons fun _ _ => ⟨nofun, nofun⟩)

theorem presence_keeps_reject (pid : Nat) (q : Query)
    (w : World chatInterface Server Failure Call) (hi : Attended w) :
    presence.Keeps w ((chat D).reject pid q w) :=
  presence_keeps_same hi rfl rfl rfl (.cons fun _ _ => ⟨nofun, nofun⟩)

/-- Only the two connection handlers touch the map. -/
theorem presence_steady_of_within {β : Type} {p : Chat β} {B : Query → Prop}
    (hp : p.Within LeavesMap B) : (chat D).Steady presence p :=
  Steady.of_within (presence_keeps_act D) (fun pid q w _ => presence_keeps_respond D pid q w)
    (presence_keeps_reject D) hp

/-- A program that leaves the map alone, run for a socket that is settled. -/
theorem presence_safe_of_within {β : Type} {p : Chat β} {B : Query → Prop} {socket : Socket}
    (hp : p.Within LeavesMap B) {b w : World chatInterface Server Failure Call}
    (hk : presence.Keeps b w) (hs : Settled socket w.state) :
    (chat D).Safe presence pid (fun _ b w => presence.Keeps b w ∧ Settled socket w.state) p b w :=
  Safe.of_within (presence_keeps_act D) (fun pid q w _ => presence_keeps_respond D pid q w)
    (presence_keeps_reject D) hp (fun _ _ h hrel => (hrel socket).2 h) hk hs

/-! ### Connecting -/

/-- A new socket is not in the map yet, and settles nothing. -/
theorem presence_keeps_connect (hi : Attended w) {socket : Socket}
    (hnew : socket.id ∉ w.state.socketIds) :
    presence.Keeps w (arrival pid (.connect socket) (connectSocket socket w.state) w) := by
  have hne : ∀ {other : Socket}, other.id ∈ w.state.socketIds → other ≠ socket := by
    intro other h hall
    subst hall
    exact hnew h
  have hgone : ∀ other, Gone other w.state → Gone other (connectSocket socket w.state) := by
    intro other h
    refine ⟨.tail _ h.known, fun hmem => ?_⟩
    rcases List.mem_append.mp hmem with hmem | hmem
    · exact h.left hmem
    · exact hne h.known (List.mem_singleton.mp hmem)
  refine ⟨fun other => ⟨hgone other, fun h => ⟨.tail _ h.known, ?_⟩⟩, ?_⟩
  · exact h.entered.imp_right fun hl => (hgone other ⟨h.known, hl⟩).left
  · constructor
    · intro other h
      rcases List.mem_append.mp h with h | h
      · exact .tail _ (hi.known other h)
      · rw [List.mem_singleton.mp h]
        exact .head _
    · show ((w.state.sockets ++ [socket]).map Socket.id).Nodup
      rw [List.map_append, List.nodup_append]
      refine ⟨hi.distinct, List.nodup_singleton _, fun id hid id' hid' => ?_⟩
      obtain ⟨other, hmem, rfl⟩ := List.mem_map.mp hid
      rw [List.mem_singleton.mp hid']
      exact fun he => hnew (he ▸ hi.known other hmem)
    · intro userId id hid
      obtain ⟨other, hmem, hu, rfl⟩ := mem_connected.mp (hi.leakless userId hid)
      exact mem_connected.mpr ⟨other, List.mem_append_left _ hmem, hu, rfl⟩
    · intro other h
      rcases List.mem_append.mp h with h | h
      · obtain ⟨pid', h'⟩ := hi.announced other h
        exact ⟨pid', .tail _ h'⟩
      · rw [List.mem_singleton.mp h]
        exact ⟨pid, .head _⟩
    · intro pid' other h
      rcases List.mem_cons.mp h with he | h
      · cases he
        exact .inl (List.mem_append_right _ (List.mem_singleton_self _))
      · apply (hi.stays pid' other h).imp (List.mem_append_left _)
        exact fun ⟨pid'', h'⟩ => ⟨pid'', .tail _ h'⟩
    · intro pid' other h
      rcases List.mem_cons.mp h with he | h
      · cases he
      · exact hgone other (hi.leaves pid' other h)

/-- Entering a socket that has not disconnected. -/
theorem presence_keeps_add (hi : Attended w) {socket : Socket}
    (harrived : .arrived pid (.connect socket) ∈ w.log)
    (ha : presence.assume ((chat D).perform pid (.addConnection socket.userId socket.id) w).log) :
    presence.Keeps w ((chat D).perform pid (.addConnection socket.userId socket.id) w) ∧
      Settled socket ((chat D).perform pid (.addConnection socket.userId socket.id) w).state := by
  have hmem : socket ∈ w.state.sockets := by
    apply (hi.stays pid socket harrived).resolve_right
    intro hleft
    exact absurd (hasLeft_iff.mpr hleft) (by simp [ha.1 socket (mem_connectsOf harrived)])
  have hregistered : ∀ userId, registered userId
      ((chat D).perform pid (.addConnection socket.userId socket.id) w).state =
        if userId = socket.userId then insert socket.id (registered socket.userId w.state)
        else registered userId w.state :=
    fun userId => registered_addConnection socket.userId userId socket.id w.state
  have hsockets := Server.act_sockets D (.addConnection socket.userId socket.id) w.state
  have hids := Server.act_socketIds D (.addConnection socket.userId socket.id) w.state
  refine ⟨presence_keeps_entered hi hsockets hids (fun userId => ?_) (fun userId => ?_)
    (.cons fun _ _ => ⟨nofun, nofun⟩), ?_, ?_⟩
  · rw [hregistered]
    split
    · rename_i hu
      rw [hu]
      exact Finset.subset_insert _ _
    · exact Finset.Subset.refl _
  · rw [hregistered]
    split
    · rename_i hu
      rw [hu]
      exact Finset.insert_subset (mem_connected.mpr ⟨socket, hmem, rfl, rfl⟩) (hi.leakless _)
    · exact hi.leakless userId
  · exact hids ▸ hi.known socket hmem
  · rw [hregistered, if_pos rfl]
    exact .inl (Finset.mem_insert_self _ _)

/-! ### Disconnecting -/

/-- What the disconnect event and the removal from the map change, which are one step. -/
structure Removed (pid : Nat) (socket : Socket) (w w' : World chatInterface Server Failure Call) :
    Prop where
  entries : ∀ userId, registered userId w'.state =
    if userId = socket.userId then (registered socket.userId w.state).erase socket.id
    else registered userId w.state
  sockets : w'.state.sockets = w.state.sockets.filter (· != socket)
  ids : w'.state.socketIds = w.state.socketIds
  log : ∃ e, w'.log = e :: .arrived pid (.disconnect socket) :: w.log ∧
    ∀ pid call, e ≠ .arrived pid call

theorem removed_perform (socket : Socket) : Removed pid socket w
    ((chat D).perform pid (.removeConnection socket.userId socket.id)
      (arrival pid (.disconnect socket) (disconnectSocket socket w.state) w)) where
  entries userId := registered_removeConnection socket.userId userId socket.id
    (disconnectSocket socket w.state)
  sockets := Server.act_sockets D (.removeConnection socket.userId socket.id)
    (disconnectSocket socket w.state)
  ids := Server.act_socketIds D (.removeConnection socket.userId socket.id)
    (disconnectSocket socket w.state)
  log := ⟨_, rfl, fun _ _ => nofun⟩

section
variable {D} {socket : Socket} (h : Removed pid socket w w')
include h

theorem Removed.mem_sockets {other : Socket} :
    other ∈ w'.state.sockets ↔ other ∈ w.state.sockets ∧ other ≠ socket := by
  rw [h.sockets, List.mem_filter, bne_iff_ne]

theorem Removed.mem_log {e : Event chatInterface Failure Call} (he : e ∈ w.log) : e ∈ w'.log := by
  obtain ⟨last, hlog, -⟩ := h.log
  rw [hlog]
  exact .tail _ (.tail _ he)

theorem Removed.left : .arrived pid (.disconnect socket) ∈ w'.log := by
  obtain ⟨last, hlog, -⟩ := h.log
  rw [hlog]
  exact .tail _ (.head _)

theorem Removed.arrived {pid' : Nat} {call : Call} (harrived : .arrived pid' call ∈ w'.log) :
    call = .disconnect socket ∨ .arrived pid' call ∈ w.log := by
  obtain ⟨last, hlog, hlast⟩ := h.log
  rw [hlog] at harrived
  rcases List.mem_cons.mp (List.mem_of_ne_of_mem (hlast pid' call).symm harrived) with heq | hmem
  · injection heq with _ hcall
    exact .inl hcall
  · exact .inr hmem

theorem Removed.gone {other : Socket} (hgone : Gone other w.state) : Gone other w'.state :=
  ⟨h.ids ▸ hgone.known, fun hmem => hgone.left (h.mem_sockets.mp hmem).1⟩

/-- Another socket has another id, and stays in the map. -/
theorem Removed.settled (hi : Attended w) (hmem : socket ∈ w.state.sockets) {other : Socket}
    (hsettled : Settled other w.state) : Settled other w'.state := by
  refine ⟨h.ids ▸ hsettled.known, ?_⟩
  by_cases hother : other ∈ w'.state.sockets
  · left
    obtain ⟨hbefore, hne⟩ := h.mem_sockets.mp hother
    have hid : other.id ≠ socket.id := fun heq => hne (hi.eq_of_id hbefore hmem heq)
    have hentry := hsettled.entered.resolve_right fun hleft => hleft hbefore
    rw [h.entries]
    split
    · rename_i hu
      exact Finset.mem_erase.mpr ⟨hid, hu ▸ hentry⟩
    · exact hentry
  · exact .inr hother

theorem Removed.leakless (hi : Attended w) (userId : ObjectId) :
    registered userId w'.state ⊆ connected userId w'.state := by
  intro id hid
  rw [h.entries] at hid
  have hbefore : id ∈ registered userId w.state ∧ (userId = socket.userId → id ≠ socket.id) := by
    split at hid
    · rename_i hu
      exact ⟨hu ▸ Finset.mem_of_mem_erase hid, fun _ => Finset.ne_of_mem_erase hid⟩
    · rename_i hu
      exact ⟨hid, fun heq => absurd heq hu⟩
  obtain ⟨other, hother, hu, rfl⟩ := mem_connected.mp (hi.leakless userId hbefore.1)
  refine mem_connected.mpr ⟨other, h.mem_sockets.mpr ⟨hother, ?_⟩, hu, rfl⟩
  intro heq
  subst heq
  exact hbefore.2 hu.symm rfl

theorem Removed.attended (hi : Attended w) (hmem : socket ∈ w.state.sockets) : Attended w' where
  known other hother := by
    rw [h.ids]
    exact hi.known other (h.mem_sockets.mp hother).1
  distinct := by
    rw [h.sockets]
    exact hi.distinct.sublist (List.filter_sublist.map _)
  leakless := h.leakless hi
  announced other hother := by
    obtain ⟨pid', hconnect⟩ := hi.announced other (h.mem_sockets.mp hother).1
    exact ⟨pid', h.mem_log hconnect⟩
  stays pid' other hconnect := by
    have hbefore := (h.arrived hconnect).resolve_left nofun
    by_cases hother : other = socket
    · subst hother
      exact .inr ⟨pid, h.left⟩
    · rcases hi.stays pid' other hbefore with hin | ⟨pid'', hleft⟩
      · exact .inl (h.mem_sockets.mpr ⟨hin, hother⟩)
      · exact .inr ⟨pid'', h.mem_log hleft⟩
  leaves pid' other hleft := by
    rcases h.arrived hleft with hcall | hbefore
    · injection hcall with hsocket
      subst hsocket
      exact ⟨h.ids ▸ hi.known other hmem, fun hin => (h.mem_sockets.mp hin).2 rfl⟩
    · exact h.gone (hi.leaves pid' other hbefore)

end

theorem presence_keeps_remove (hi : Attended w) {socket : Socket} (hmem : socket ∈ w.state.sockets) :
    presence.Keeps w ((chat D).perform pid (.removeConnection socket.userId socket.id)
      (arrival pid (.disconnect socket) (disconnectSocket socket w.state) w)) := by
  have h : Removed pid socket w _ := removed_perform D socket
  exact ⟨fun other => ⟨h.gone, h.settled hi hmem⟩, h.attended hi hmem⟩

/-! ### The handlers -/

/-- What a finished connect handler owes. -/
def Connected (socket : Socket) (b w : World chatInterface Server Failure Call) : Prop :=
  presence.assume w.log → presence.Keeps b w ∧ Settled socket w.state

theorem handleUserConnect_safe {socket : Socket} {b w : World chatInterface Server Failure Call}
    (hk : presence.Keeps b w) (harrived : .arrived pid (.connect socket) ∈ w.log) :
    (chat D).Safe presence pid (fun _ => Connected socket) (handleUserConnect socket) b w := by
  unfold handleUserConnect
  apply (safe_bind _ _ _ _ _).mpr
  show (chat D).Safe presence pid _ (if (!_) = true then _ else _) b
    ((chat D).perform pid (.addConnection socket.userId socket.id) w)
  have hadd := @presence_keeps_add D pid _ hk.inv _ harrived
  split
  · exact fun ha => ⟨hk.trans (hadd ha).1, (hadd ha).2⟩
  · refine Safe.of_assume (Q := fun _ => Connected socket) (fun r b w h ha => h ha ha) fun ha => ?_
    refine (presence_safe_of_within D (B := fun _ => True) ?_ (hk.trans (hadd ha).1)
      (hadd ha).2).mono fun r b w h _ => h
    apply ((Program.within_query _).mpr trivial).bind
    intro user
    apply (getUserConversationRoomIds_within _ trivial).bind
    intro roomIds
    apply (lastSeenOf_within user (by simp [LeavesMap])).bind
    intro lastSeen
    exact emitToEach_within _ _ (by simp [LeavesMap])

/-- The task has not entered its socket yet. -/
def NotEntered (pid : Nat) (w : World chatInterface Server Failure Call) : Prop :=
  ∀ userId id r, .acted pid (.addConnection userId id) r ∉ w.log

theorem NotEntered.meanwhile (h : NotEntered pid w) (hw : presence.Meanwhile pid w w') :
    NotEntered pid w' :=
  fun userId id r hmem => h userId id r ((hw.mem_own rfl).mp hmem)

/-- A connect handler one of whose queries fails before the entry: its socket has left. -/
theorem settled_of_failed {socket : Socket} {q : Query} {e : Failure}
    {w₁ w₂ : World chatInterface Server Failure Call} (harrived : .arrived pid (.connect socket) ∈ w.log)
    (hnot : NotEntered pid w) (hw₁ : presence.Meanwhile pid w w₁)
    (hfailed : Failed presence pid q e w₁ w₂) : Settled socket w₂.state := by
  rcases hfailed.condition.1 socket (mem_connectsOf (hw₁.mem harrived)) with hentered | hleft
  · obtain ⟨userId, id, r, hadded⟩ := hasEntered_iff.mp hentered
    exact absurd hadded (hnot.meanwhile hw₁ userId id r)
  · obtain ⟨pid', hleft⟩ := hasLeft_iff.mp hleft
    have hgone := (hfailed.keeps.rel socket).1 (hw₁.inv.leaves pid' socket hleft)
    exact ⟨hgone.known, .inr hgone.left⟩

theorem autoJoin_safe {socket : Socket} {b w : World chatInterface Server Failure Call}
    (hk : presence.Keeps b w) (harrived : .arrived pid (.connect socket) ∈ w.log)
    (hnot : NotEntered pid w) :
    (chat D).Safe presence pid (fun r b w => match r with
      | .ok _ => presence.Keeps b w ∧ .arrived pid (.connect socket) ∈ w.log
      | .error _ => Connected socket b w) (autoJoinConversationRooms socket) b w := by
  refine (safe_bind _ _ _ _ _).mpr ((safe_bind _ _ _ _ _).mpr (Safe.of_query hk ?_ ?_ ?_ ?_))
  · exact fun w₁ hw₁ _ => presence_keeps_respond D pid _ w₁ hw₁.inv
  · exact fun w₁ hw₁ _ => presence_keeps_reject D pid _ w₁ hw₁.inv
  · intro roomIds w₁ w₂ hw₁ _ _ hw₂
    have harrived₂ : .arrived pid (.connect socket) ∈ w₂.log := hw₂.mem (.tail _ (hw₁.mem harrived))
    have hnot₁ : NotEntered pid ((chat D).respond pid (.conversationIds socket.userId) w₁) := by
      intro userId id r hmem
      rcases List.mem_cons.mp hmem with he | hmem
      · cases he
      · exact hnot.meanwhile hw₁ userId id r hmem
    have hnot₂ : NotEntered pid w₂ := hnot₁.meanwhile hw₂
    show (chat D).Safe presence pid _ (if (roomIds.map ObjectId.toString).isEmpty = true then _
      else _) w₂ w₂
    split
    · exact ⟨.refl hw₂.inv, harrived₂⟩
    · refine (safe_bind _ _ _ _ _).mpr (Safe.of_query ?_ ?_ ?_ ?_ ?_)
      · exact presence_keeps_act D pid _ w₂ (by simp [LeavesMap]) hw₂.inv
      · exact fun w₃ hw₃ _ => presence_keeps_respond D pid _ w₃ hw₃.inv
      · exact fun w₃ hw₃ _ => presence_keeps_reject D pid _ w₃ hw₃.inv
      · intro _ w₃ w₄ hw₃ _ _ hw₄
        exact ⟨.refl hw₄.inv, hw₄.mem (.tail _ (hw₃.mem (.tail _ harrived₂)))⟩
      · intro e w₃ w₄ hw₃ hfailed _
        refine ⟨.refl hfailed.keeps.inv, settled_of_failed (.tail _ harrived₂) ?_ hw₃ hfailed⟩
        intro userId id r hmem
        rcases List.mem_cons.mp hmem with he | hmem
        · cases he
        · exact hnot₂ userId id r hmem
  · intro e w₁ w₂ hw₁ hfailed _
    exact ⟨.refl hfailed.keeps.inv, settled_of_failed harrived hnot hw₁ hfailed⟩

/-- What a finished call owes: a connect handler has entered its socket, unless it has left. -/
def Attends (call : Call) (_ : Except Failure Response)
    (w : World chatInterface Server Failure Call) : Prop :=
  ∀ socket, call = .connect socket → Settled socket w.state

theorem connect_safe {socket : Socket} {b w : World chatInterface Server Failure Call}
    (hk : presence.Keeps b w) (harrived : .arrived pid (.connect socket) ∈ w.log)
    (hnot : NotEntered pid w) :
    (chat D).Safe presence pid (presence.Ended (Attends (.connect socket)))
      (Call.body D (.connect socket)) b w := by
  refine (safe_bind _ _ _ _ _).mpr ((safe_tryCatch _ _ _ _ _).mpr ((safe_bind _ _ _ _ _).mpr ?_))
  have hend : ∀ {b w : World chatInterface Server Failure Call} {r : Except Failure Response},
      Connected socket b w → presence.Ended (Attends (.connect socket)) r b w := by
    intro b w r h ha
    refine ⟨(h ha).1, ?_⟩
    rintro _ ⟨⟩
    exact (h ha).2
  apply (autoJoin_safe D hk harrived hnot).mono
  intro result b w h
  rcases result with e | v
  · exact hend h
  · apply (handleUserConnect_safe D h.1 h.2).mono
    intro result b w h
    rcases result with e | v
    · exact hend h
    · exact hend h

theorem disconnect_safe {socket : Socket} (hi : Attended w) (hmem : socket ∈ w.state.sockets) :
    (chat D).Safe presence pid (presence.Ended (Attends (.disconnect socket)))
      (Call.body D (.disconnect socket)) w
      (arrival pid (.disconnect socket) (disconnectSocket socket w.state) w) := by
  have hend : ∀ {b w : World chatInterface Server Failure Call} {r : Except Failure Response},
      presence.Keeps b w → presence.Ended (Attends (.disconnect socket)) r b w :=
    fun hk _ => ⟨hk, nofun⟩
  refine (safe_bind _ _ _ _ _).mpr ((safe_tryCatch _ _ _ _ _).mpr ((safe_bind _ _ _ _ _).mpr ?_))
  have hremove := @presence_keeps_remove D pid _ hi _ hmem
  show (chat D).Safe presence pid _ (if (!_) = true then _ else _) w
    ((chat D).perform pid (.removeConnection socket.userId socket.id) _)
  split
  · exact hend hremove
  · refine (presence_steady_of_within D (B := fun _ => True) ?_ pid w _ hremove).mono ?_
    · refine Program.Within.bind ?_ fun user => ?_
      · apply ((Program.within_perform _).mpr (by simp [LeavesMap])).bind
        intro now
        exact (Program.within_query _).mpr trivial
      · apply (getUserConversationRoomIds_within _ trivial).bind
        intro roomIds
        apply (lastSeenOf_within user (by simp [LeavesMap])).bind
        intro lastSeen
        exact emitToEach_within _ _ (by simp [LeavesMap])
    · intro result b w hk
      rcases result with e | v
      · exact hend hk
      · exact hend hk

theorem chat_upholds_presence : (chat D).Upholds presence fun _ => Attends := by
  refine ⟨fun pid call w s hi hfresh ha => ?_, fun n w hi => ?_, fun pid call r w w' h hw => ?_⟩
  · have haccept : call.accept w.state = some s := ha
    have hwithin : (∀ socket, call ≠ .connect socket ∧ call ≠ .disconnect socket) → s = w.state →
        (∀ a, call.Acts a → LeavesMap a) →
        (chat D).Safe presence pid (presence.Ended (Attends call)) (Call.body D call) w
          (arrival pid call s w) := by
      intro hother h' hacts
      subst h'
      have hk : presence.Keeps w (arrival pid call w.state w) :=
        presence_keeps_same hi rfl rfl rfl (.cons fun pid' socket =>
          ⟨fun he => (hother socket).1 (Event.arrived.inj he).2,
            fun he => (hother socket).2 (Event.arrived.inj he).2⟩)
      have hsteady := presence_steady_of_within D ((body_within D call).mono hacts fun _ h => h)
      exact (hsteady pid w _ hk).mono fun r b w hk _ =>
        ⟨hk, fun socket h => absurd h (hother socket).1⟩
    cases call with
    | connect socket =>
      obtain ⟨hnew, rfl⟩ := accept_connect haccept
      apply connect_safe D (presence_keeps_connect hi hnew) (.head _)
      intro userId id r hmem
      rcases List.mem_cons.mp hmem with he | hmem
      · cases he
      · exact hfresh _ hmem rfl
    | disconnect socket =>
      obtain ⟨hmem, rfl⟩ := accept_disconnect haccept
      exact disconnect_safe D hi hmem
    | event socket name args id =>
      refine hwithin (fun _ => ⟨nofun, nofun⟩) (accept_event haccept).2 ?_
      intro a h userId id'
      constructor <;> rintro rfl <;> cases name <;> exact h
    | createConversation userId body id =>
      refine hwithin (fun _ => ⟨nofun, nofun⟩) (Option.some.inj haccept).symm ?_
      intro a h userId id'
      constructor <;> rintro rfl <;> exact h
    | listConversations userId =>
      exact hwithin (fun _ => ⟨nofun, nofun⟩) (Option.some.inj haccept).symm fun a h => h.elim
    | getMessageHistory userId id page =>
      exact hwithin (fun _ => ⟨nofun, nofun⟩) (Option.some.inj haccept).symm fun a h => h.elim
  · exact presence_keeps_same hi rfl rfl rfl ⟨[], rfl, by simp⟩
  · exact fun socket hc => (hw.rel socket).2 (h socket hc)

/-- **The map of connections.** In every run of the server, on any data, in which each socket
is entered before it disconnects and no connect handler fails before it has entered its
socket, the map is exact whenever no connect handler is in flight. -/
theorem presence_run (users : Users) (conversations : Conversations) (messages : Messages)
    (clock : Nat) (moves : List (Move Call))
    (h : Each Orderly ((chat D).run
      (Config.start (.boot users conversations messages clock)) moves).world.log)
    (hidle : Idle ((chat D).run (Config.start (.boot users conversations messages clock)) moves)) :
    Accurate ((chat D).run
      (Config.start (.boot users conversations messages clock)) moves).world.state := by
  generalize hs : Server.boot users conversations messages clock = s at h hidle ⊢
  have hstart : (chat D).Sound presence (fun _ => Attends) (Config.start s) := by
    subst hs
    exact .start ⟨nofun, List.nodup_nil, fun userId => Finset.empty_subset _, nofun, nofun, nofun⟩
  have hpresent := (Present.start s : Present (Config.start s)).run (chat D) moves
  obtain ⟨_, hsound⟩ := hstart.run (chat_upholds_presence D) moves h
  refine accurate_of_registered fun userId => (hsound.inv.leakless userId).antisymm fun id hid => ?_
  obtain ⟨socket, hmem, rfl, rfl⟩ := mem_connected.mp hid
  obtain ⟨pid, harrived⟩ := hsound.inv.announced socket hmem
  obtain ⟨task, htask⟩ := hpresent pid _ harrived
  have hdone := hidle _ (List.mem_of_getElem? htask) rfl
  cases task with
  | blocked q next => cases hdone
  | ready p => cases hdone
  | done r => exact ((hsound.tasks pid _ htask) socket rfl).entered.resolve_right fun hl => hl hmem

end

/-! One user, one socket, and no conversations. -/

instance (c : Config chatInterface Server Failure Call Response) : Decidable (Idle c) :=
  inferInstanceAs (Decidable (∀ entry ∈ c.tasks, _ → _))

def emptyServer : Server := .boot .empty .empty .empty 5

def visitor : Socket := ⟨.ofChar 'a', .ending 1, "ann".toList⟩

/-- The visitor's connect handler runs to its end, and then a second socket comes and goes. -/
def visits : List (Move Call) :=
  let second : Socket := ⟨.ofChar 'b', .ending 1, "ann".toList⟩
  [.arrive (.connect visitor)] ++ Move.rounds 0 3 ++ [.arrive (.connect second)] ++
    Move.rounds 1 1 ++ [.arrive (.disconnect second)]

/-- The visitor leaves while the connect handler still waits for the list of rooms. -/
def shortVisit : List (Move Call) :=
  [.arrive (.connect visitor), .arrive (.disconnect visitor)] ++ Move.rounds 0 3

theorem presence_run_visits :
    Accurate ((chat .default).run (Config.start emptyServer) visits).world.state :=
  presence_run .default .empty .empty .empty 5 visits (by decide +kernel) (by decide +kernel)

theorem shortVisit_leaks :
    Idle ((chat .default).run (Config.start emptyServer) shortVisit) ∧
      ¬ Accurate ((chat .default).run (Config.start emptyServer) shortVisit).world.state := by
  refine ⟨by decide +kernel, fun h => ?_⟩
  have honline : isUserOnline (.ending 1)
      ((chat .default).run (Config.start emptyServer) shortVisit).world.state = true := by
    decide +kernel
  obtain ⟨socket, hmem, _⟩ := (h (.ending 1)).2.mp honline
  have hnobody : ((chat .default).run (Config.start emptyServer) shortVisit).world.state.sockets = [] := by
    decide +kernel
  rw [hnobody] at hmem
  cases hmem

end RealtimeChat
