import RealtimeChat.Client.Sidebar
import RealtimeChat.Handlers.Refusals

/-! What stands over the thread (`frontend-ui/src/pages/ChatPage.tsx`).

The page keeps the id of the conversation that is open, and looks for it in the list
whenever it is drawn. An answer that comes late may replace the list by one that was read
before the conversation was there. Only such an answer makes the page lose it, and the page,
with its thread open, asks to select a conversation; whenever it is found, the page says of it
what is stored (`heading_truthful`). -/
namespace RealtimeChat
open Data (Text Collection toFront)
open Async Async.System

/-- The page of a signed-in user: its list, and what is open. -/
structure MainScreen where
  sidebar : Sidebar
  activeConversationId : Option ObjectId

inductive MainScreenMove where
  | sidebar (move : SidebarMove)
  /-- An entry of the list is clicked on. -/
  | select (conversationId : ObjectId)

namespace MainScreen

def mounted (start : Server) : MainScreen := ⟨.mounted start, none⟩

/-- What `onCreate` goes on with: the conversation that `startConversation` has returned. -/
def created (p : Sidebar) : SidebarMove → Option Conversation
  | .response i =>
    match p.calls[i]? with
    | none => none
    | some call =>
      match call.request, call.result p.server with
      | .create _ _ _, some (.conversation conversation) => some conversation
      | _, _ => none
  | _ => none

section
variable (D : Deployment) (socket : Socket)

def step (p : MainScreen) : MainScreenMove → MainScreen
  | .sidebar move => {
      sidebar := p.sidebar.step D socket move
      activeConversationId := ((created p.sidebar move).map Conversation.id).or p.activeConversationId }
  | .select id =>
    if p.sidebar.hook.conversations.any (fun c => c.id == id) then {p with activeConversationId := some id}
    else p

def run (p : MainScreen) : List MainScreenMove → MainScreen
  | [] => p
  | m :: rest => run (p.step D socket m) rest

end

def activeConversation (p : MainScreen) : Option ClientConversation :=
  p.sidebar.hook.conversations.find? fun c => some c.id == p.activeConversationId

/-- For a user who is signed in. -/
def title (userId : ObjectId) (p : MainScreen) : Text :=
  match p.activeConversation with
  | none => "Select a conversation".toList
  | some conversation =>
    if conversation.type = .group then orText conversation.name "Group chat".toList
    else
      let other := conversation.members.find? fun m => m.id != some userId
      orText (other.bind ClientMember.username) "Unknown user".toList

def subtitle (userId : ObjectId) (p : MainScreen) : Text :=
  match p.activeConversation with
  | none => []
  | some conversation =>
    if conversation.type = .group then (toString conversation.members.length).toList ++ " members".toList
    else
      let other := conversation.members.find? fun m => m.id != some userId
      if other.bind ClientMember.status = some .online then "Online".toList else "Offline".toList

end MainScreen

/-! ### What is lost -/

/-- The name that the conversation has for the user: a group's own, or who the other member is. -/
def Conversation.nameFor (d : Conversation) (userId : ObjectId) (s : Server) : Text :=
  if d.type = .group then orText d.name "Group chat".toList
  else
    let other := (d.members.filterMap s.populate).find? fun u => u.id != userId
    orText (other.map Sender.username) "Unknown user".toList

/-- The task read the list of the user's conversations while this one was not stored. -/
def Overlooked (D : Deployment) (start : Server) (userId : ObjectId)
    (server : Config chatInterface Server Failure Call Response) (pid : Nat)
    (list : List PopulatedConversation) (id : ObjectId) : Prop :=
  ∃ before rest later, server = (chat D).run (Config.start start) (before ++ rest) ∧
    server.world.log = later ++ .answered pid (.conversationFind userId) (.ok list) ::
      ((chat D).run (Config.start start) before).world.log ∧
    ((chat D).run (Config.start start) before).world.state.conversations.find id = none

/-- The move replaces the list by the one that the task has returned. -/
def Sidebar.Replaces (p : Sidebar) (m : SidebarMove) (pid : Nat) (list : List ConversationWithUnreadCount) :
    Prop :=
  ∃ i, m = .response i ∧ p.calls[i]? = some ⟨.list, some pid⟩ ∧
    (⟨.list, some pid⟩ : ListCall).result p.server = some (.conversations list)

/-- A move has replaced the list, which had the open conversation, by one that was read before that
was stored; and since that move the page has been on this conversation and has not found it. -/
def Displaced (D : Deployment) (start : Server) (socket : Socket) (moves : List MainScreenMove)
    (id : ObjectId) : Prop :=
  ∃ before m after pid list, moves = before ++ .sidebar m :: after ∧
    let screen := (MainScreen.mounted start).run D socket
    (screen before).activeConversationId = some id ∧ (screen before).activeConversation ≠ none ∧
      (screen before).sidebar.Replaces m pid list ∧
      Overlooked D start socket.userId (screen before).sidebar.server pid (list.map (·.conversation)) id ∧
      ∀ front, front <+: after →
        (screen (before ++ .sidebar m :: front)).activeConversationId = some id ∧
          (screen (before ++ .sidebar m :: front)).activeConversation = none

/-- The user's own conversation of this id is stored. -/
def Owned (userId : ObjectId) (s : Server) (id : ObjectId) : Prop :=
  ∃ d ∈ s.conversations.docs, d.id = id ∧ userId ∈ d.members

section
variable {D : Deployment} {start : Server} {socket : Socket} {p : Sidebar} {userId id : ObjectId}
  {s s' : Server}

theorem Owned.grown (h : Owned userId s id) (hgrown : s.board.Grown s'.board) : Owned userId s' id := by
  obtain ⟨d, hd, rfl, hmember⟩ := h
  obtain ⟨d', hd', hsame, -⟩ := Conversation.grown hd hgrown
  exact ⟨d', hd', hsame.id, hsame.members ▸ hmember⟩

theorem Listed.owned {c : ClientConversation} (h : Listed userId s c) : Owned userId s c.id := by
  obtain ⟨d, hd, hmember, hshows⟩ := h
  exact ⟨d, hd, hshows.id.symm, hmember⟩

/-- A list that a task returns has all of the user's conversations that were stored when it was read. -/
theorem listed_or_overlooked {moves : List (Move Call)} {pid : Nat} {list : List ConversationWithUnreadCount}
    (h : ((chat D).run (Config.start start) moves).tasks[pid]? =
      some ⟨.listConversations userId, .done (.ok (.conversations list))⟩)
    (hown : Owned userId ((chat D).run (Config.start start) moves).world.state id) :
    id ∈ (list.map ConversationWithUnreadCount.toJSON).map ClientConversation.id ∨
      Overlooked D start userId ((chat D).run (Config.start start) moves) pid (list.map (·.conversation))
        id := by
  obtain ⟨later, earlier, hlog⟩ := List.append_of_mem (listConversations_read moves h)
  obtain ⟨before, ⟨rest, rfl⟩, rfl, hanswer⟩ := (chat D).run_answer hlog
  cases hfind : ((chat D).run (Config.start start) before).world.state.conversations.find id with
  | none => exact .inr ⟨before, [.answer pid] ++ rest, later, by rw [List.append_assoc], hlog, hfind⟩
  | some d =>
    -- The conversation was there already, with the same members.
    obtain ⟨hd, rfl⟩ := Collection.find_eq_some.mp hfind
    obtain ⟨d', hd', hid, hmember⟩ := hown
    obtain ⟨calls, hsteps, -⟩ := board_steps D start before ([.answer pid] ++ rest)
    rw [← List.append_assoc] at hsteps
    obtain ⟨d'', hd'', hsame, -⟩ := Conversation.grown hd (Board.grown_steps hsteps)
    obtain rfl := Collection.eq_of_key _ hd' hd'' (hid.trans hsame.id.symm)
    have hread := Except.ok.inj (congrArg Prod.fst hanswer)
    have hfiltered : d ∈ ((chat D).run (Config.start start) before).world.state.conversations.docs.filter
        fun c => c.members.contains userId :=
      List.mem_filter.mpr ⟨hd, List.contains_iff_mem.mpr (hsame.members ▸ hmember)⟩
    have hpopulated := List.mem_map_of_mem
      (f := ((chat D).run (Config.start start) before).world.state.populateConversation)
      ((D.byUpdate.perm _).mem_iff.mpr hfiltered)
    rw [hread] at hpopulated
    obtain ⟨item, hitem, hconversation⟩ := List.mem_map.mp hpopulated
    refine .inl (List.mem_map.mpr ⟨item.toJSON, List.mem_map_of_mem hitem, ?_⟩)
    exact congrArg (fun c : PopulatedConversation => c.conversation.id) hconversation

/-! ### What a step of the list does to it -/

theorem UseConversations.on_ids (hook : UseConversations) (e : ServerEvent) :
    ((hook.on e).conversations.map ClientConversation.id).Perm (hook.conversations.map ClientConversation.id) := by
  cases e with
  | messageNew payload =>
    rw [UseConversations.on, bump_conversations]
    exact Data.map_toFront_perm ClientConversation.id _ fun _ _ _ => rfl
  | userOnline payload =>
    rw [UseConversations.on, updatePresence_conversations, List.map_map]
    rfl
  | userOffline payload =>
    rw [UseConversations.on, updatePresence_conversations, List.map_map]
    rfl
  | _ => rfl

/-- A started conversation is in the list, and no other is put out of it. -/
theorem UseConversations.startConversation_ids (hook : UseConversations) (d : Conversation) (id : ObjectId) :
    id ∈ (hook.startConversation d).conversations.map ClientConversation.id ↔
      id = d.id ∨ id ∈ hook.conversations.map ClientConversation.id := by
  unfold UseConversations.startConversation
  split
  · rename_i hthere
    obtain ⟨c, hc, hid⟩ := List.any_eq_true.mp hthere
    constructor
    · exact .inr
    · rintro (rfl | h)
      · exact List.mem_map.mpr ⟨c, hc, beq_iff_eq.mp hid⟩
      · exact h
  · exact List.mem_cons

/-- Nothing else than a list that is returned puts a conversation out of the list. -/
theorem Sidebar.step_ids (D : Deployment) (socket : Socket) (p : Sidebar)
    (h : id ∈ p.hook.conversations.map ClientConversation.id) (m : SidebarMove) :
    id ∈ (p.step D socket m).hook.conversations.map ClientConversation.id ∨
      ∃ pid list, p.Replaces m pid list ∧
        (p.step D socket m).hook.conversations = list.map ConversationWithUnreadCount.toJSON := by
  cases m with
  | server move => exact .inl h
  | refresh => exact .inl h
  | startConversation type members name => exact .inl h
  | request i k =>
    simp only [Sidebar.step, Sidebar.request]
    split <;> exact .inl h
  | response i =>
    simp only [Sidebar.step, Sidebar.response]
    split
    · exact .inl h
    · rename_i call hcall
      split
      · rename_i list hrequest hlist
        obtain ⟨request, task⟩ := call
        obtain rfl : request = .list := hrequest
        cases task with
        | none => cases hlist
        | some pid => exact .inr ⟨pid, list, ⟨i, rfl, hcall, hlist⟩, rfl⟩
      · exact .inl ((p.hook.startConversation_ids _ id).mpr (.inr h))
      · exact .inl h
  | failure i message =>
    simp only [Sidebar.step, Sidebar.failure]
    split <;> exact .inl h
  | event =>
    simp only [Sidebar.step, Sidebar.event]
    split
    · exact .inl h
    · exact .inl ((p.hook.on_ids _).mem_iff.mpr h)

theorem Sidebar.step_server (D : Deployment) (socket : Socket) (p : Sidebar) (m : SidebarMove) :
    (p.step D socket m).server = p.server ∨
      ∃ move, (p.step D socket m).server = (chat D).step p.server move := by
  cases m with
  | server move => exact .inr ⟨move, rfl⟩
  | request i id =>
    simp only [Sidebar.step, Sidebar.request]
    split
    · rename_i request hcall
      exact .inr ⟨.arrive (request.call socket.userId id), rfl⟩
    · exact .inl rfl
  | response i =>
    simp only [Sidebar.step, Sidebar.response]
    split
    · exact .inl rfl
    · split <;> exact .inl rfl
  | failure i message =>
    simp only [Sidebar.step, Sidebar.failure]
    split <;> exact .inl rfl
  | event =>
    simp only [Sidebar.step, Sidebar.event]
    split <;> exact .inl rfl
  | _ => exact .inl rfl

theorem Owned.step (h : Owned socket.userId p.server.world.state id) (hp : p.Sound D start socket)
    (m : SidebarMove) : Owned socket.userId (p.step D socket m).server.world.state id := by
  rcases p.step_server D socket m with hsame | ⟨move, hstep⟩
  · rw [hsame]
    exact h
  · rw [hstep]
    exact h.grown (hp.grown move)

/-- What has been started is what a request to create a conversation has been answered with. -/
theorem created_response {m : SidebarMove} {d : Conversation} (h : MainScreen.created p m = some d) :
    ∃ i call type members name, m = .response i ∧ p.calls[i]? = some call ∧
      call.request = .create type members name ∧ call.result p.server = some (.conversation d) := by
  cases m with
  | response i =>
    simp only [MainScreen.created] at h
    split at h
    · cases h
    · rename_i call hcall
      split at h
      · rename_i type members name conversation hrequest hconversation
        obtain rfl := Option.some.inj h
        exact ⟨i, call, type, members, name, rfl, hcall, hrequest, hconversation⟩
      · cases h
  | _ => cases h

/-- It is the user's own. -/
theorem created_owned (hp : p.Sound D start socket) (hlinked : Linked start) {m : SidebarMove}
    {d : Conversation} (h : MainScreen.created p m = some d) :
    Owned socket.userId p.server.world.state d.id := by
  obtain ⟨moves, hmoves⟩ := hp.server
  obtain ⟨i, call, type, members, name, rfl, hcall, hrequest, hconversation⟩ := created_response h
  obtain ⟨pid, k, -, hdone⟩ := hp.result hmoves hcall hconversation
  rw [hrequest] at hdone
  rw [hmoves]
  exact (createConversation_listed hlinked moves hdone).owned

/-- It is in the list. -/
theorem created_ids (D : Deployment) (socket : Socket) {m : SidebarMove} {d : Conversation}
    (h : MainScreen.created p m = some d) :
    d.id ∈ (p.step D socket m).hook.conversations.map ClientConversation.id := by
  obtain ⟨i, call, type, members, name, rfl, hcall, hrequest, hconversation⟩ := created_response h
  simp only [Sidebar.step, Sidebar.response, hcall, hrequest, hconversation]
  exact (p.hook.startConversation_ids _ _).mpr (.inl rfl)

/-! ### Every screen -/

/-- The open conversation is the user's own. -/
structure MainScreen.Sound (D : Deployment) (start : Server) (socket : Socket) (p : MainScreen) : Prop where
  sidebar : p.sidebar.Sound D start socket
  owned : ∀ id, p.activeConversationId = some id → Owned socket.userId p.sidebar.server.world.state id

variable {screen : MainScreen}

theorem MainScreen.step_active {move : SidebarMove}
    (h : (screen.step D socket (.sidebar move)).activeConversationId = some id) :
    (∃ d, MainScreen.created screen.sidebar move = some d ∧ d.id = id) ∨
      screen.activeConversationId = some id := by
  rcases Option.or_eq_some_iff.mp h with hcreated | ⟨-, hid⟩
  · exact .inl (Option.map_eq_some_iff.mp hcreated)
  · exact .inr hid

theorem MainScreen.Sound.step (h : screen.Sound D start socket) (hlinked : Linked start) (m : MainScreenMove) :
    (screen.step D socket m).Sound D start socket := by
  cases m with
  | sidebar move =>
    refine ⟨h.sidebar.step hlinked move, fun id hid => ?_⟩
    rcases MainScreen.step_active hid with ⟨d, hcreated, rfl⟩ | hid
    · exact (created_owned h.sidebar hlinked hcreated).step h.sidebar move
    · exact (h.owned id hid).step h.sidebar move
  | select id =>
    simp only [MainScreen.step]
    split
    · rename_i hthere
      obtain ⟨c, hc, hid⟩ := List.any_eq_true.mp hthere
      obtain rfl := beq_iff_eq.mp hid
      refine ⟨h.sidebar, fun id hid => ?_⟩
      obtain rfl := Option.some.inj hid
      exact (h.sidebar.truthful.listed c hc).owned
    · exact h

theorem MainScreen.Sound.mounted (D : Deployment) (start : Server) (socket : Socket) :
    (MainScreen.mounted start).Sound D start socket :=
  ⟨.mounted D start socket, nofun⟩

theorem MainScreen.Sound.run (h : screen.Sound D start socket) (hlinked : Linked start)
    (moves : List MainScreenMove) : (screen.run D socket moves).Sound D start socket := by
  induction moves generalizing screen with
  | nil => exact h
  | cons m rest ih => exact ih (h.step hlinked m)

/-! ### How the open conversation is lost -/

theorem MainScreen.run_append (D : Deployment) (socket : Socket) (p : MainScreen)
    (a b : List MainScreenMove) : p.run D socket (a ++ b) = (p.run D socket a).run D socket b := by
  induction a generalizing p with
  | nil => rfl
  | cons m rest ih => exact ih _

/-- The open conversation is found exactly if it is in the list. -/
theorem MainScreen.activeConversation_none (hactive : screen.activeConversationId = some id) :
    screen.activeConversation = none ↔ id ∉ screen.sidebar.hook.conversations.map ClientConversation.id := by
  rw [activeConversation, List.find?_eq_none, hactive]
  simp

/-- What is open after a move is in the list, or was open before it and is only lost to a list that
is returned. -/
theorem MainScreen.step_finds (m : MainScreenMove)
    (h : (screen.step D socket m).activeConversationId = some id) :
    id ∈ (screen.step D socket m).sidebar.hook.conversations.map ClientConversation.id ∨
      screen.activeConversationId = some id ∧
        (id ∈ screen.sidebar.hook.conversations.map ClientConversation.id → ∃ move pid list,
          m = .sidebar move ∧ screen.sidebar.Replaces move pid list ∧
          (screen.step D socket m).sidebar.hook.conversations =
            list.map ConversationWithUnreadCount.toJSON) := by
  cases m with
  | sidebar move =>
    rcases MainScreen.step_active h with ⟨d, hcreated, rfl⟩ | hid
    · exact .inl (created_ids D socket hcreated)
    · by_cases hin : id ∈ screen.sidebar.hook.conversations.map ClientConversation.id
      · rcases Sidebar.step_ids D socket screen.sidebar hin move with hkept | ⟨pid, list, hreplaces, hlist⟩
        · exact .inl hkept
        · exact .inr ⟨hid, fun _ => ⟨move, pid, list, rfl, hreplaces, hlist⟩⟩
      · exact .inr ⟨hid, fun hin' => absurd hin' hin⟩
  | select selected =>
    simp only [MainScreen.step] at h ⊢
    split at h
    · rename_i hthere
      obtain ⟨c, hc, hid⟩ := List.any_eq_true.mp hthere
      obtain rfl := Option.some.inj h
      rw [if_pos hthere]
      exact .inl (List.mem_map.mpr ⟨c, hc, beq_iff_eq.mp hid⟩)
    · rename_i hnone
      rw [if_neg hnone]
      by_cases hin : id ∈ screen.sidebar.hook.conversations.map ClientConversation.id
      · exact .inl hin
      · exact .inr ⟨h, fun hin' => absurd hin' hin⟩

/-- It stays lost for a move more. -/
theorem Displaced.step {moves : List MainScreenMove} (h : Displaced D start socket moves id)
    (m : MainScreenMove)
    (hactive : ((MainScreen.mounted start).run D socket (moves ++ [m])).activeConversationId = some id)
    (hnone : ((MainScreen.mounted start).run D socket (moves ++ [m])).activeConversation = none) :
    Displaced D start socket (moves ++ [m]) id := by
  obtain ⟨before, move, after, pid, list, rfl, hopen, hfinds, hreplaces, hread, hsince⟩ := h
  refine ⟨before, move, after ++ [m], pid, list, List.append_assoc _ _ _, hopen, hfinds, hreplaces, hread,
    fun front hfront => ?_⟩
  rcases List.prefix_concat_iff.mp hfront with rfl | hfront
  · rw [← List.cons_append, ← List.append_assoc]
    exact ⟨hactive, hnone⟩
  · exact hsince front hfront

theorem Sidebar.Sound.overlooked (h : p.Sound D start socket) {m : SidebarMove} {pid : Nat}
    {list : List ConversationWithUnreadCount} (hreplaces : p.Replaces m pid list)
    (hown : Owned socket.userId p.server.world.state id)
    (hmissing : id ∉ (list.map ConversationWithUnreadCount.toJSON).map ClientConversation.id) :
    Overlooked D start socket.userId p.server pid (list.map (·.conversation)) id := by
  obtain ⟨moves, hmoves⟩ := h.server
  obtain ⟨i, -, hcall, hresult⟩ := hreplaces
  obtain ⟨pid', k, hpid, hdone⟩ := h.result hmoves hcall hresult
  obtain rfl := Option.some.inj hpid
  rw [hmoves] at hown ⊢
  exact (listed_or_overlooked hdone hown).resolve_left hmissing

/-- The open conversation is found, or an answer has displaced it. -/
theorem found_or_displaced (hlinked : Linked start) (moves : List MainScreenMove)
    (hactive : ((MainScreen.mounted start).run D socket moves).activeConversationId = some id) :
    ((MainScreen.mounted start).run D socket moves).activeConversation ≠ none ∨
      Displaced D start socket moves id := by
  -- From the end: what the last move leaves unfound, it has put out of the list, or was so before.
  induction moves using List.reverseRecOn with
  | nil => cases hactive
  | append_singleton rest m ih =>
    refine or_iff_not_imp_left.mpr fun hfound => ?_
    have hnone := not_not.mp hfound
    have hmissing := (MainScreen.activeConversation_none hactive).mp hnone
    have hsound := (MainScreen.Sound.mounted D start socket).run hlinked rest
    have hrun := MainScreen.run_append D socket (.mounted start) rest [m]
    rw [hrun] at hmissing
    rcases MainScreen.step_finds m (hrun ▸ hactive) with hin | ⟨hopen, hlost⟩
    · exact absurd hin hmissing
    · rcases ih hopen with hfinds | hdisplaced
      · have hin := not_imp_comm.mp (MainScreen.activeConversation_none hopen).mpr hfinds
        obtain ⟨move, pid, list, rfl, hreplaces, hlist⟩ := hlost hin
        have hread := hsound.sidebar.overlooked hreplaces (hsound.owned id hopen) (hlist ▸ hmissing)
        refine ⟨rest, move, [], pid, list, rfl, hopen, hfinds, hreplaces, hread, fun front hfront => ?_⟩
        rw [List.prefix_nil.mp hfront]
        exact ⟨hactive, hnone⟩
      · exact hdisplaced.step m hactive hnone

/-! ### What the page says -/

/-- The name in the list is the stored one, unless the members have come by id. -/
theorem Conversation.Shows.label {d : Conversation} {c : ClientConversation} (h : d.Shows s c)
    (userId : ObjectId) : getConversationLabel c userId = d.nameFor userId s ∨
      d.type ≠ .group ∧ c.members = d.members.map .reference ∧
        getConversationLabel c userId = "Unknown user".toList := by
  unfold getConversationLabel Conversation.nameFor
  rw [h.type, h.name]
  split
  · exact .inl rfl
  · rename_i htype
    rcases h.members with hreferences | ⟨users, husers, hsame⟩
    · refine .inr ⟨htype, hreferences, ?_⟩
      rw [hreferences]
      cases d.members with
      | nil => rfl
      | cons v rest => rfl
    · refine .inl ?_
      have hother : ((fun m : ClientMember => m.id != some userId) ∘ ClientMember.user) =
          (fun u : Sender => u.id != userId) ∘ ClientUser.toSender := by
        funext u
        simp [ClientMember.id, ClientUser.toSender, bne]
      dsimp only
      rw [husers, ← hsame, List.find?_map, List.find?_map, hother]
      cases users.find? ((fun u : Sender => u.id != userId) ∘ ClientUser.toSender) <;> rfl

/-- Each member is counted whose account is there. -/
theorem Conversation.Shows.members_length {d : Conversation} {c : ClientConversation} (h : d.Shows s c)
    (hthere : ∀ v ∈ d.members, s.populate v ≠ none) : c.members.length = d.members.length := by
  rcases h.members with hreferences | ⟨users, husers, hsame⟩
  · rw [hreferences, List.length_map]
  · have hlength := congrArg List.length hsame
    rw [List.length_map] at hlength
    rw [husers, List.length_map, hlength, List.filterMap_length_eq_length]
    exact fun v hv => Option.isSome_iff_ne_none.mpr (hthere v hv)

/-- What stands over the thread of the open conversation `d`, after these moves. -/
inductive MainScreen.Heads (D : Deployment) (start : Server) (socket : Socket) (moves : List MainScreenMove)
    (d : Conversation) (p : MainScreen) : Prop where
  /-- The list has lost the conversation, to one that is too old. -/
  | lost (hactive : p.activeConversation = none)
    (htitle : p.title socket.userId = "Select a conversation".toList) (hsubtitle : p.subtitle socket.userId = [])
    (hdisplaced : Displaced D start socket moves d.id)
  /-- It is named as in the list, and as it is stored, unless its members have come by id. -/
  | shown {c : ClientConversation} (hactive : p.activeConversation = some c)
    (hshows : d.Shows p.sidebar.server.world.state c) (htitle : p.title socket.userId = getConversationLabel c socket.userId)
    (hname : p.title socket.userId = d.nameFor socket.userId p.sidebar.server.world.state ∨ d.type ≠ .group ∧
      c.members = d.members.map .reference ∧ p.title socket.userId = "Unknown user".toList)
    (honline : d.type ≠ .group → p.subtitle socket.userId = "Online".toList → isOtherMemberOnline c socket.userId = true)
    (hcount : d.type = .group → (∀ v ∈ d.members, p.sidebar.server.world.state.populate v ≠ none) →
      p.subtitle socket.userId = (toString d.members.length).toList ++ " members".toList)

theorem MainScreen.Sound.heads (h : screen.Sound D start socket) (hactive : screen.activeConversationId = some id)
    {moves : List MainScreenMove}
    (hlost : screen.activeConversation ≠ none ∨ Displaced D start socket moves id) :
    ∃ d ∈ screen.sidebar.server.world.state.conversations.docs, d.id = id ∧ socket.userId ∈ d.members ∧
      screen.Heads D start socket moves d := by
  obtain ⟨d, hd, rfl, hmember⟩ := h.owned id hactive
  refine ⟨d, hd, rfl, hmember, ?_⟩
  cases hfind : screen.activeConversation with
  | none => exact .lost hfind (by rw [title, hfind]) (by rw [subtitle, hfind]) (hlost.resolve_left (absurd hfind))
  | some c =>
    have hid : c.id = d.id := by
      have hfound := List.find?_some hfind
      rw [hactive] at hfound
      simpa using hfound
    obtain ⟨d', hd', hmember', hshows⟩ := h.sidebar.truthful.listed c (List.mem_of_find?_eq_some hfind)
    obtain rfl := Collection.eq_of_key _ hd hd' (hid.symm.trans hshows.id)
    have htitle : screen.title socket.userId = getConversationLabel c socket.userId := by
      rw [title, hfind]
      rfl
    refine .shown hfind hshows htitle (htitle ▸ hshows.label socket.userId) (fun htype honline => ?_)
      fun htype hthere => ?_
    · rw [subtitle, hfind] at honline
      dsimp only at honline
      rw [if_neg (hshows.type ▸ htype)] at honline
      split at honline
      · rename_i hstatus
        obtain ⟨m, hother, hm⟩ := Option.bind_eq_some_iff.mp hstatus
        refine List.any_eq_true.mpr ⟨m, List.mem_of_find?_eq_some hother, ?_⟩
        rw [List.find?_some hother, hm]
        rfl
      · exact absurd honline (by decide)
    · rw [subtitle, hfind]
      dsimp only
      rw [if_pos (hshows.type.trans htype), hshows.members_length hthere]

end

/-- **What stands over the thread is so.** Whatever is asked for, started and opened, and in
whichever order answers and events come: the open conversation is stored, and is the user's own. It
is named as it is stored, unless its members have come by id; and where the page has lost it, it was
found until the list was replaced by one that was read before it was there. -/
theorem heading_truthful (D : Deployment) (start : Server) (hlinked : Linked start) (socket : Socket)
    (moves : List MainScreenMove) (id : ObjectId)
    (hactive : ((MainScreen.mounted start).run D socket moves).activeConversationId = some id) :
    let p := (MainScreen.mounted start).run D socket moves
    ∃ d ∈ p.sidebar.server.world.state.conversations.docs, d.id = id ∧ socket.userId ∈ d.members ∧
      p.Heads D start socket moves d := by
  exact ((MainScreen.Sound.mounted D start socket).run hlinked moves).heads hactive
    (found_or_displaced hlinked moves hactive)

/-- No id is taken by reading. -/
theorem getMessageHistory_reads {D : Deployment} {userId : ObjectId} {id : Text} {page : PaginationQuery}
    {q : Query} (h : (Call.getMessageHistory userId id page).Asks q) (s : Server) :
    (Server.answer D q s).1 ≠ .error .duplicateKey := by
  cases q with
  | conversationFindOne v u =>
    simp only [Server.answer, Server.casting]
    split <;> simp
  | messageFind spelling cursor limit =>
    simp only [Server.answer, Server.casting]
    split
    · split <;> simp
    · simp
  | _ => exact h.elim

/-- **What is open can be read.** Whatever the user has asked for, started and opened, and whatever
the server has done since: when the history of the open conversation is asked for, as the page asks
for it, that is refused for nothing but a failure of the database. -/
theorem opened_readable (D : Deployment) (start : Server) (hlinked : Linked start) (socket : Socket)
    (moves : List MainScreenMove) (id : ObjectId)
    (hactive : ((MainScreen.mounted start).run D socket moves).activeConversationId = some id)
    (between after : List (Move Call)) (r : Except Failure Response)
    (htask :
      let server := (chat D).run ((MainScreen.mounted start).run D socket moves).sidebar.server between
      let request := Session.historyRequest socket id.toString
      ((chat D).run server (.arrive request :: after)).tasks[server.tasks.length]? =
        some ⟨request, .done r⟩) (e : Failure) (hrefused : r = .error e) :
    e = .queryFailed := by
  have hsound := (MainScreen.Sound.mounted D start socket).run hlinked moves
  obtain ⟨ms, hms⟩ := hsound.sidebar.server
  have howned := hsound.owned id hactive
  dsimp only at htask
  rw [hms] at htask howned
  rw [← System.run_append (chat D) _ ms between, ← System.run_append] at htask
  have hmember : Owned socket.userId ((chat D).run (Config.start start) (ms ++ between)).world.state id := by
    obtain ⟨_, hsteps, -⟩ := board_steps D start ms between
    exact howned.grown (Board.grown_steps hsteps)
  have hsense : ¬ (Session.historyRequest socket id.toString).Malformed := by
    rintro (h | h)
    · exact h rfl
    · cases (ObjectId.isValid_toString id).symm.trans h
  obtain ⟨-, hcases⟩ := refused_cases rfl htask
  rcases hcases e hrefused with ⟨hmalformed, -⟩ | ⟨-, k, hk, hforeign⟩ | ⟨-, hfailed, q, hanswered⟩
  · exact absurd hmalformed hsense
  · obtain ⟨d, hd, rfl, hin⟩ := hmember
    obtain rfl := Option.some.inj ((ObjectId.cast_toString d.id).symm.trans hk)
    exact absurd ⟨d, hd, rfl, hin⟩ hforeign
  · refine hfailed.resolve_right fun htaken => ?_
    subst htaken
    obtain ⟨later, earlier, hlog⟩ := List.append_of_mem hanswered
    obtain ⟨call, task, hentry, hlaw⟩ := (behaved_run D start _).law hlog rfl
    obtain ⟨rfl, -⟩ : Session.historyRequest socket id.toString = call ∧ _ = task := by
      simpa using htask.symm.trans hentry
    rcases (chat D).run_answerable start _ _ hanswered with ⟨s, hs⟩ | ⟨-, hfault⟩
    · exact getMessageHistory_reads (Call.law_asks hlaw) s hs.symm
    · cases hfault

/-! The run of `Client/Sidebar.lean`: the started conversation is open when the older list comes. -/

def startedScreen : MainScreen :=
  (MainScreen.mounted switchServer).run .default reader
    ((startedMoves ++ [SidebarMove.response 0]).map MainScreenMove.sidebar)

theorem heading_truthful_started : startedScreen.title reader.userId = "Select a conversation".toList ∧
    Displaced .default switchServer reader
      ((startedMoves ++ [SidebarMove.response 0]).map MainScreenMove.sidebar) (.ending 8) := by
  obtain ⟨d, -, hid, -, hheads⟩ := heading_truthful .default switchServer switchServer_linked reader
    ((startedMoves ++ [SidebarMove.response 0]).map MainScreenMove.sidebar) (.ending 8) (by decide +kernel)
  cases hheads with
  | lost hactive htitle hsubtitle hdisplaced => exact ⟨htitle, hid ▸ hdisplaced⟩
  | shown hactive =>
    have hnone : startedScreen.activeConversation = none := by decide +kernel
    cases hactive.symm.trans hnone

/-- Its history is asked for, and the first query does not get through. -/
theorem opened_readable_started : ∃ e, ((chat .default).run startedScreen.sidebar.server
      [.arrive (Session.historyRequest reader (ObjectId.ending 8).toString), .fail 2, .resume 2]).tasks[2]? =
        some ⟨Session.historyRequest reader (ObjectId.ending 8).toString, .done (.error e)⟩ ∧
    e = .queryFailed := by
  refine ⟨.queryFailed, rfl, ?_⟩
  exact opened_readable .default switchServer switchServer_linked reader
    ((startedMoves ++ [SidebarMove.response 0]).map MainScreenMove.sidebar) (.ending 8) (by decide +kernel) []
    [.fail 2, .resume 2] (.error .queryFailed) rfl .queryFailed rfl

end RealtimeChat
