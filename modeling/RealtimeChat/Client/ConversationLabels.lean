import RealtimeChat.Client.UseConversations
import RealtimeChat.Data.Runs
import RealtimeChat.Handlers.Completion
import RealtimeChat.Messages.Sends

/-! How one-to-one conversations are shown (`frontend-ui/src/components/ConversationList.tsx`).

The label and the status dot are read off the other member, who is populated by
`GET /api/conversations` and not by `POST /api/conversations`. A conversation that
`startConversation` puts into the list has bare ids for members, whatever its type says: it
is labelled `Unknown user` until the next refresh. All other conversations are shown as
they should be (`labelled_iff`). -/
namespace RealtimeChat
open Data (Text Collection toFront)
open Data.Runs
open Async Async.System

inductive ListMove where
  /-- A query of some handler is answered. -/
  | serve (q : Query)
  | refresh
  /-- The answer to `refresh`. -/
  | refreshed
  | refreshFailed (message : String)
  | startConversation (id : ObjectId) (input : CreateConversationInput)
  | event (e : ServerEvent)

/-- The server and the hook of a signed-in user. -/
structure ListSession where
  server : Server
  hook : UseConversations
  /-- The status that was last received of a user. -/
  received : ObjectId → Option UserStatus

namespace ListSession

def mounted (server : Server) : ListSession := ⟨server, .mounted, fun _ => none⟩

/-- The status that comes with a list, of those who are members in it. -/
def statusIn (list : List ConversationWithUnreadCount) (userId : ObjectId) : Option UserStatus :=
  ((list.flatMap fun c => c.conversation.members).find? fun v => v.id == userId).map User.status

def receive (received : ObjectId → Option UserStatus) : ServerEvent → ObjectId → Option UserStatus
  | .userOnline payload => Function.update received payload.userId (some payload.status)
  | .userOffline payload => Function.update received payload.userId (some payload.status)
  | _ => received

section
variable (D : Deployment) (userId : ObjectId)

def step (s : ListSession) : ListMove → ListSession
  | .serve q => {s with server := (Server.answer D q s.server).2}
  | .refresh => {s with hook := s.hook.refresh}
  | .refreshed =>
    match ((chat D).alone (listConversations userId) s.server).1 with
    | .ok list => {s with
      hook := s.hook.refreshed list
      received := fun v => (statusIn list v).or (s.received v)}
    | .error _ => s
  | .refreshFailed message => {s with hook := s.hook.refreshFailed message}
  | .startConversation id input =>
    match (chat D).alone (createConversation id userId input) s.server with
    | (.ok c, server) => {s with server, hook := s.hook.startConversation c}
    | (.error _, server) => {s with server}
  | .event e => {s with hook := s.hook.on e, received := receive s.received e}

end

end ListSession

/-- The conversation is one-to-one, between the user and another. -/
structure Between (userId other : ObjectId) (c : Conversation) : Prop where
  type : c.type = .oneToOne
  ne : other ≠ userId
  members : ∀ m, m ∈ c.members ↔ m = userId ∨ m = other

/-- The other member is populated, and shown by name and with the status last received. -/
structure ShowsOther (userId : ObjectId) (v : User) (status : Option UserStatus)
    (c : ClientConversation) : Prop where
  populated : ∀ m ∈ c.members, m.id ≠ none
  present : ∃ m ∈ c.members, m.id = some v.id
  label : getConversationLabel c userId = v.username
  online : isOtherMemberOnline c userId = (status == some .online)

/-- All conversations of the list with another user are shown as such. -/
def Labelled (userId : ObjectId) (s : ListSession) : Prop :=
  ∀ c ∈ s.hook.conversations, ∀ d ∈ s.server.conversations.docs, d.id = c.id →
    ∀ v ∈ s.server.users.docs, Between userId v.id d → ShowsOther userId v (s.received v.id) c

/-- `startConversation` is answered with a conversation that is in the list already, or that is
not one with another user. -/
def AddsNoOther (D : Deployment) (userId : ObjectId) (s : ListSession) : ListMove → Prop
  | .startConversation id input =>
    ∀ d, ((chat D).alone (createConversation id userId input) s.server).1 = .ok d →
      (∃ c ∈ s.hook.conversations, c.id = d.id) ∨ ∀ v ∈ s.server.users.docs, ¬ Between userId v.id d
  | _ => True

/-! ### What lasts -/

/-- Users keep their names, and conversations their types and members. -/
structure Lasting (s s' : Server) : Prop where
  users : ∀ id, s'.populate id = s.populate id
  conversations : ∀ d ∈ s.conversations.docs, ∃ d' ∈ s'.conversations.docs, d.Same d'

theorem Lasting.refl (s : Server) : Lasting s s := ⟨fun _ => rfl, fun d hd => ⟨d, hd, rfl, rfl, rfl⟩⟩

theorem Lasting.trans {a b c : Server} (h : Lasting a b) (h' : Lasting b c) : Lasting a c := by
  refine ⟨fun id => (h'.users id).trans (h.users id), fun d hd => ?_⟩
  obtain ⟨d', hd', hsame⟩ := h.conversations d hd
  obtain ⟨d'', hd'', hsame'⟩ := h'.conversations d' hd'
  exact ⟨d'', hd'', hsame.trans hsame'⟩

theorem Lasting.answer (D : Deployment) (q : Query) (s : Server) :
    Lasting s (Server.answer D q s).2 :=
  ⟨populate_answer D q s, fun _ hd => (Server.answer_conversations D q s).persists hd⟩

theorem Lasting.act (D : Deployment) (a : Action) (s : Server) : Lasting s (Server.act D a s).2 := by
  refine ⟨fun id => ?_, fun d hd => ⟨d, ?_, rfl, rfl, rfl⟩⟩
  · rw [Server.populate, (Server.act_sameStore D a s).users]
    rfl
  · rw [Server.act_conversations]
    exact hd

theorem populate_of_mem {s : Server} {v : User} (h : v ∈ s.users.docs) :
    s.populate v.id = some v.toSender := by
  rw [Server.populate, Collection.find_eq_some.mpr ⟨h, rfl⟩]
  rfl

theorem exists_of_populate {s : Server} {id : ObjectId} {sender : Sender}
    (h : s.populate id = some sender) : ∃ v ∈ s.users.docs, v.toSender = sender := by
  obtain ⟨v, hfind, hsender⟩ := Option.map_eq_some_iff.mp h
  exact ⟨v, (Collection.find_eq_some.mp hfind).1, hsender⟩

/-- The users are the same, their statuses apart. -/
theorem Lasting.user {s s' : Server} (h : Lasting s s') {v : User} (hv : v ∈ s'.users.docs) :
    ∃ v₀ ∈ s.users.docs, v₀.toSender = v.toSender :=
  exists_of_populate ((h.users v.id).symm.trans (populate_of_mem hv))

theorem Lasting.user_stays {s s' : Server} (h : Lasting s s') {v : User} (hv : v ∈ s.users.docs) :
    ∃ v' ∈ s'.users.docs, v'.toSender = v.toSender :=
  exists_of_populate ((h.users v.id).trans (populate_of_mem hv))

/-- What is so of all ids of users stays so. -/
theorem Lasting.forall_users {s s' : Server} (h : Lasting s s') {p : ObjectId → Prop} :
    (∀ v ∈ s'.users.docs, p v.id) ↔ ∀ v ∈ s.users.docs, p v.id := by
  constructor
  · intro hall v hv
    obtain ⟨v', hv', hsame⟩ := h.user_stays hv
    exact (Sender.mk.inj hsame).1 ▸ hall v' hv'
  · intro hall v hv
    obtain ⟨v₀, hv₀, hsame⟩ := h.user hv
    exact (Sender.mk.inj hsame).1 ▸ hall v₀ hv₀

/-- An entry has the type of a stored conversation, and no members but of it. -/
def Stems (s : Server) (c : ClientConversation) : Prop :=
  ∃ d ∈ s.conversations.docs, d.id = c.id ∧ d.type = c.type ∧
    ∀ m ∈ c.members, ∀ id, m.id = some id → id ∈ d.members

structure Rooted (s : ListSession) : Prop where
  named : ∀ v ∈ s.server.users.docs, v.username ≠ []
  stems : ∀ c ∈ s.hook.conversations, Stems s.server c

section
variable {D : Deployment} {userId : ObjectId} {s : ListSession} {server : Server}

theorem Stems.lasting {c : ClientConversation} (h : Stems s.server c) (hl : Lasting s.server server) :
    Stems server c := by
  obtain ⟨d, hd, hid, htype, hmembers⟩ := h
  obtain ⟨d', hd', hsame⟩ := hl.conversations d hd
  refine ⟨d', hd', hsame.id.trans hid, hsame.type.trans htype, fun m hm id hmid => ?_⟩
  rw [hsame.members]
  exact hmembers m hm id hmid

theorem Lasting.named (h : Lasting s.server server) (hr : Rooted s) :
    ∀ v ∈ server.users.docs, v.username ≠ [] := by
  intro v hv
  obtain ⟨v₀, hv₀, hsame⟩ := h.user hv
  rw [← (Sender.mk.inj hsame).2.1]
  exact hr.named v₀ hv₀

theorem Rooted.lasting (h : Rooted s) (hl : Lasting s.server server) : Rooted {s with server} :=
  ⟨hl.named h, fun c hc => (h.stems c hc).lasting hl⟩

/-- The other member of an entry is the only one, and its ids are those stored. -/
theorem Rooted.other (h : Rooted s) {c : ClientConversation} (hc : c ∈ s.hook.conversations)
    {d : Conversation} (hd : d ∈ s.server.conversations.docs) (hid : d.id = c.id) {v : ObjectId}
    (hbetween : Between userId v d) : c.type = .oneToOne ∧
      ∀ m ∈ c.members, ∀ id, m.id = some id → id = userId ∨ id = v := by
  obtain ⟨d', hd', hid', htype, hmembers⟩ := h.stems c hc
  obtain rfl := s.server.conversations.eq_of_key hd' hd (hid'.trans hid.symm)
  refine ⟨htype.symm.trans hbetween.type, fun m hm id hmid => ?_⟩
  exact (hbetween.members id).mp (hmembers m hm id hmid)

/-- What the server does meanwhile changes no label. -/
theorem Labelled.lasting (h : Labelled userId s) (hr : Rooted s) (hl : Lasting s.server server) :
    Labelled userId {s with server} := by
  intro c hc d hd hid v hv hbetween
  obtain ⟨d₀, hd₀, hid₀, -⟩ := hr.stems c hc
  obtain ⟨d', hd', hsame⟩ := hl.conversations d₀ hd₀
  obtain rfl : d' = d :=
    Collection.eq_of_key server.conversations hd' hd (hsame.id.trans (hid₀.trans hid.symm))
  obtain ⟨v₀, hv₀, huser⟩ := hl.user hv
  obtain ⟨hvid, hname, -⟩ := Sender.mk.inj huser
  have hbetween₀ : Between userId v₀.id d₀ := by
    refine ⟨hsame.type.symm.trans hbetween.type, hvid ▸ hbetween.ne, fun m => ?_⟩
    rw [← hsame.members, hvid]
    exact hbetween.members m
  have hshows := h c hc d₀ hd₀ hid₀ v₀ hv₀ hbetween₀
  rw [hvid] at hshows
  obtain ⟨hpopulated, hpresent, hlabel, honline⟩ := hshows
  exact ⟨hpopulated, hvid ▸ hpresent, hlabel.trans hname, honline⟩

/-! ### Events -/

theorem getConversationLabel_presence (payload : PresenceEvent) (c : ClientConversation) :
    getConversationLabel {c with members := c.members.map (UseConversations.withPresence payload)}
      userId = getConversationLabel c userId := by
  have hother : (fun m : ClientMember => m.id != some userId) ∘ UseConversations.withPresence payload =
      fun m => m.id != some userId := by
    funext m
    rw [Function.comp_apply, UseConversations.withPresence_id]
  simp only [getConversationLabel, List.find?_map, hother]
  cases c.members.find? fun m => m.id != some userId with
  | none => rfl
  | some m => simp only [Option.map_some, Option.bind_some, UseConversations.withPresence_username]

/-- Presence of any user leaves the other member shown as it should be. -/
theorem ShowsOther.presence {v : User} {received : ObjectId → Option UserStatus}
    {c : ClientConversation} (h : ShowsOther userId v (received v.id) c) (hne : v.id ≠ userId)
    (hids : ∀ m ∈ c.members, ∀ id, m.id = some id → id = userId ∨ id = v.id)
    (payload : PresenceEvent) :
    ShowsOther userId v (Function.update received payload.userId (some payload.status) v.id)
      {c with members := c.members.map (UseConversations.withPresence payload)} := by
  have hother : ∀ m ∈ c.members, m.id ≠ some userId → m.id = some v.id := by
    intro m hm hm'
    obtain ⟨id, hid⟩ := Option.ne_none_iff_exists'.mp (h.populated m hm)
    rcases hids m hm id hid with rfl | rfl
    · exact absurd hid hm'
    · exact hid
  obtain ⟨m₀, hm₀, hid₀⟩ := h.present
  refine ⟨fun m hm => ?_, ?_, ?_, ?_⟩
  · obtain ⟨m', hm', rfl⟩ := List.mem_map.mp hm
    rw [UseConversations.withPresence_id]
    exact h.populated m' hm'
  · exact ⟨_, List.mem_map_of_mem hm₀, (UseConversations.withPresence_id payload m₀).trans hid₀⟩
  · exact (getConversationLabel_presence payload c).trans h.label
  · have hstatus : ∀ m ∈ c.members, m.id ≠ some userId → (UseConversations.withPresence payload m).status =
        if v.id = payload.userId then some payload.status else m.status :=
      fun m hm hm' => UseConversations.withPresence_status (hother m hm hm')
    show (c.members.map (UseConversations.withPresence payload)).any _ = _
    rw [List.any_map, Bool.eq_iff_iff, List.any_eq_true]
    simp only [Function.comp_apply, UseConversations.withPresence_id, Bool.and_eq_true, bne_iff_ne,
      ne_eq, beq_iff_eq]
    by_cases hv : v.id = payload.userId
    · -- All copies of the other member take the status of the event.
      rw [← hv, Function.update_self]
      constructor
      · intro hany
        obtain ⟨m, hm, hm', honline⟩ := hany
        rwa [hstatus m hm hm', if_pos hv] at honline
      · intro honline
        have hm₀' : m₀.id ≠ some userId := fun heq => hne (Option.some.inj (hid₀.symm.trans heq))
        refine ⟨m₀, hm₀, hm₀', ?_⟩
        rwa [hstatus m₀ hm₀ hm₀', if_pos hv]
    · rw [Function.update_of_ne hv, ← beq_iff_eq, ← h.online, isOtherMemberOnline, List.any_eq_true]
      refine exists_congr fun m => and_congr_right fun hm => ?_
      rw [Bool.and_eq_true, bne_iff_ne, beq_iff_eq]
      refine and_congr_right fun hm' => ?_
      rw [hstatus m hm hm', if_neg hv]

theorem Rooted.on (h : Rooted s) (e : ServerEvent) (received : ObjectId → Option UserStatus) :
    Rooted {s with hook := s.hook.on e, received} := by
  refine ⟨h.named, fun c hc => ?_⟩
  have hpresence : ∀ payload, c ∈ (s.hook.updatePresence payload).conversations → Stems s.server c := by
    intro payload hc
    obtain ⟨c', hc', rfl⟩ := List.mem_map.mp hc
    obtain ⟨d, hd, hid, htype, hmembers⟩ := h.stems c' hc'
    refine ⟨d, hd, hid, htype, fun m hm id hmid => ?_⟩
    obtain ⟨m', hm', rfl⟩ := List.mem_map.mp hm
    rw [UseConversations.withPresence_id] at hmid
    exact hmembers m' hm' id hmid
  cases e with
  | messageNew payload =>
    rcases UseConversations.mem_bump hc with hc | ⟨c', hc', rfl⟩
    · exact h.stems c hc
    · exact h.stems c' hc'
  | userOnline payload => exact hpresence payload hc
  | userOffline payload => exact hpresence payload hc
  | _ => exact h.stems c hc

/-- No event spoils what is shown. -/
theorem Labelled.on (h : Labelled userId s) (hr : Rooted s) (e : ServerEvent) :
    Labelled userId {s with hook := s.hook.on e, received := ListSession.receive s.received e} := by
  have hpresence : ∀ payload, Labelled userId {s with
      hook := s.hook.updatePresence payload
      received := Function.update s.received payload.userId (some payload.status)} := by
    intro payload c hc d hd hid v hv hbetween
    obtain ⟨c', hc', rfl⟩ := List.mem_map.mp hc
    exact (h c' hc' d hd hid v hv hbetween).presence hbetween.ne (hr.other hc' hd hid hbetween).2 payload
  cases e with
  | messageNew payload =>
    intro c hc d hd hid v hv hbetween
    rcases UseConversations.mem_bump hc with hc | ⟨c', hc', rfl⟩
    · exact h c hc d hd hid v hv hbetween
    · obtain ⟨hpopulated, hpresent, hlabel, honline⟩ := h c' hc' d hd hid v hv hbetween
      exact ⟨hpopulated, hpresent, hlabel, honline⟩
  | userOnline payload => exact hpresence payload
  | userOffline payload => exact hpresence payload
  | _ => exact h

/-! ### The answer to a refresh -/

/-- Users in the place of members, one of them another than the signed-in one. -/
theorem showsOther_of_users {c : ClientConversation} {users : List User} {v : User}
    (hmembers : c.members = users.map fun w => .user w.toJSON) (htype : c.type = .oneToOne)
    (hv : v ∈ users) (hne : v.id ≠ userId) (hother : ∀ w ∈ users, w.id ≠ userId → w = v)
    (hnamed : v.username ≠ []) : ShowsOther userId v (some v.status) c := by
  have hmem : ∀ m ∈ c.members, ∃ w ∈ users, .user w.toJSON = m := fun m hm =>
    List.mem_map.mp (hmembers ▸ hm)
  have hpresent : .user v.toJSON ∈ c.members := hmembers ▸ List.mem_map_of_mem hv
  have hvid : (ClientMember.user v.toJSON).id ≠ some userId := fun heq => hne (Option.some.inj heq)
  have honly : ∀ m ∈ c.members, m.id ≠ some userId → m = .user v.toJSON := by
    intro m hm hm'
    obtain ⟨w, hw, rfl⟩ := hmem m hm
    rw [hother w hw fun heq => hm' (congrArg some heq)]
  constructor
  · intro m hm
    obtain ⟨w, -, rfl⟩ := hmem m hm
    exact Option.some_ne_none _
  · exact ⟨_, hpresent, rfl⟩
  · have hgroup : ¬ c.type = .group := by rw [htype]; decide
    simp only [getConversationLabel, if_neg hgroup]
    cases hfind : c.members.find? fun m => m.id != some userId with
    | none => exact absurd (List.find?_eq_none.mp hfind _ hpresent) (by simpa using hvid)
    | some m =>
      rw [honly m (List.mem_of_find?_eq_some hfind) (by simpa using List.find?_some hfind)]
      show (if v.username.isEmpty = true then _ else _) = _
      rw [if_neg (by simpa using hnamed)]
      rfl
  · rw [Bool.eq_iff_iff, isOtherMemberOnline, List.any_eq_true, beq_iff_eq]
    constructor
    · intro hany
      obtain ⟨m, hm, hboth⟩ := hany
      rw [Bool.and_eq_true, bne_iff_ne, beq_iff_eq] at hboth
      rw [honly m hm hboth.1] at hboth
      exact hboth.2
    · intro honline
      refine ⟨_, hpresent, ?_⟩
      rw [Bool.and_eq_true, bne_iff_ne, beq_iff_eq]
      exact ⟨hvid, honline⟩

section
variable {list : List ConversationWithUnreadCount}
  (hlist : ((chat D).alone (listConversations userId) s.server).1 = .ok list)
include hlist

theorem mem_listed_members {c : ConversationWithUnreadCount} (hc : c ∈ list) {v : User}
    (hv : v ∈ c.conversation.members) : v ∈ s.server.users.docs := by
  obtain ⟨stored, -, -, hpopulated⟩ := mem_listed D hlist hc
  rw [hpopulated] at hv
  obtain ⟨id, -, hfind⟩ := List.mem_filterMap.mp hv
  exact (Collection.find_eq_some.mp hfind).1

theorem statusIn_eq {c : ConversationWithUnreadCount} (hc : c ∈ list) {v : User}
    (hv : v ∈ c.conversation.members) : ListSession.statusIn list v.id = some v.status := by
  unfold ListSession.statusIn
  cases hfind : (list.flatMap fun c => c.conversation.members).find? fun w => w.id == v.id with
  | none => simpa using List.find?_eq_none.mp hfind v (List.mem_flatMap.mpr ⟨c, hc, hv⟩)
  | some w =>
    obtain ⟨c', hc', hw⟩ := List.mem_flatMap.mp (List.mem_of_find?_eq_some hfind)
    have hid : w.id = v.id := by simpa using List.find?_some hfind
    have hstored := mem_listed_members hlist hc' hw
    rw [s.server.users.eq_of_key hstored (mem_listed_members hlist hc hv) hid]
    rfl

/-- A conversation that has been listed shows its other member. -/
theorem listed_shows {c : ConversationWithUnreadCount} (hc : c ∈ list) {v : User}
    (hv : v ∈ s.server.users.docs) (hnamed : v.username ≠ [])
    (hbetween : Between userId v.id c.conversation.conversation) :
    ShowsOther userId v (some v.status) c.toJSON := by
  obtain ⟨d, hd, -, hpopulated⟩ := mem_listed D hlist hc
  obtain ⟨⟨conversation, lastMessage, members⟩, unreadCount⟩ := c
  obtain ⟨rfl, -, rfl⟩ := PopulatedConversation.mk.inj hpopulated
  have hmem : v ∈ conversation.members.filterMap s.server.users.find :=
    List.mem_filterMap.mpr ⟨v.id, (hbetween.members v.id).mpr (.inr rfl),
      Collection.find_eq_some.mpr ⟨hv, rfl⟩⟩
  have hother : ∀ w ∈ conversation.members.filterMap s.server.users.find, w.id ≠ userId → w = v := by
    intro w hw hne
    obtain ⟨id, hid, hfind⟩ := List.mem_filterMap.mp hw
    obtain ⟨hw', rfl⟩ := Collection.find_eq_some.mp hfind
    rcases (hbetween.members w.id).mp hid with heq | heq
    · exact absurd heq hne
    · exact s.server.users.eq_of_key hw' hv heq
  refine showsOther_of_users ?_ hbetween.type hmem hbetween.ne hother hnamed
  rfl

end

/-! ### The steps -/

theorem Rooted.refreshed (h : Rooted s) {list : List ConversationWithUnreadCount}
    (hlist : ((chat D).alone (listConversations userId) s.server).1 = .ok list)
    (received : ObjectId → Option UserStatus) : Rooted {s with hook := s.hook.refreshed list, received} := by
  refine ⟨h.named, fun c hc => ?_⟩
  obtain ⟨item, hitem, rfl⟩ := List.mem_map.mp hc
  obtain ⟨d, hd, -, hpopulated⟩ := mem_listed D hlist hitem
  obtain ⟨⟨conversation, lastMessage, members⟩, unreadCount⟩ := item
  obtain ⟨rfl, -, rfl⟩ := PopulatedConversation.mk.inj hpopulated
  refine ⟨conversation, hd, rfl, rfl, fun m hm id hmid => ?_⟩
  obtain ⟨w, hw, rfl⟩ := List.mem_map.mp hm
  obtain ⟨id', hid', hfind⟩ := List.mem_filterMap.mp hw
  obtain ⟨-, rfl⟩ := Collection.find_eq_some.mp hfind
  exact Option.some.inj hmid ▸ hid'

theorem labelled_refreshed (h : Rooted s) {list : List ConversationWithUnreadCount}
    (hlist : ((chat D).alone (listConversations userId) s.server).1 = .ok list) :
    Labelled userId {s with
      hook := s.hook.refreshed list
      received := fun v => (ListSession.statusIn list v).or (s.received v)} := by
  intro c hc d hd hid v hv hbetween
  obtain ⟨item, hitem, rfl⟩ := List.mem_map.mp hc
  obtain ⟨d', hd', -, hpopulated⟩ := mem_listed D hlist hitem
  obtain rfl : d' = d := by
    refine s.server.conversations.eq_of_key hd' hd ?_
    rw [hid]
    exact (congrArg (fun c : PopulatedConversation => c.conversation.id) hpopulated).symm
  have hmember : v ∈ item.conversation.members := by
    rw [hpopulated]
    exact List.mem_filterMap.mpr ⟨v.id, (hbetween.members v.id).mpr (.inr rfl),
      Collection.find_eq_some.mpr ⟨hv, rfl⟩⟩
  have hshows := listed_shows hlist hitem hv (h.named v hv) (by rw [hpopulated]; exact hbetween)
  have hreceived : (ListSession.statusIn list v.id).or (s.received v.id) = some v.status := by
    rw [statusIn_eq hlist hitem hmember]
    rfl
  rw [← hreceived] at hshows
  exact hshows

/-- What `createConversation` returns is stored, found or just created. -/
theorem createConversation_stored {id : ObjectId} {input : CreateConversationInput} {s t : Server}
    {c : Conversation} (h : (chat D).alone (createConversation id userId input) s = (.ok c, t)) :
    c ∈ t.conversations.docs := by
  have hcreate : ∀ memberIds, (chat D).alone ((perform .now).bind fun now =>
      query (.conversationCreate id input.type input.name memberIds now)) s = (.ok c, t) →
      c ∈ t.conversations.docs := by
    intro memberIds hcall
    change (chat D).alone (query (.conversationCreate id input.type input.name memberIds s.clock)) s =
      (.ok c, t) at hcall
    rw [alone_query] at hcall
    have hanswer : Server.answer D (.conversationCreate id input.type input.name memberIds s.clock) s =
      (.ok c, t) := hcall
    have hstored := (Server.conversationCreate_answer (congrArg Prod.fst hanswer)).1
    rwa [hanswer] at hstored
  unfold createConversation at h
  cases htype : input.type with
  | group =>
    rw [htype] at h hcreate
    exact hcreate _ h
  | oneToOne =>
    rw [htype] at h hcreate
    change (chat D).alone ((query (.conversationFindOneToOne _)).bind _) s = _ at h
    rw [alone_query_bind] at h
    cases hcast : (fromSet (userId.toString :: input.members)).mapM ObjectId.cast with
    | none =>
      simp only [Server.answer, hcast] at h
      cases h
    | some members =>
      simp only [Server.answer, hcast] at h
      cases hfound : s.conversations.docs.find? (Server.matchesOneToOne members) with
      | none =>
        rw [hfound] at h
        exact hcreate _ h
      | some existing =>
        rw [hfound] at h
        obtain ⟨hexisting, rfl⟩ := Prod.mk.inj h
        exact Except.ok.inj hexisting ▸ List.mem_of_find?_eq_some hfound

theorem Lasting.createConversation (id : ObjectId) (input : CreateConversationInput) (s : Server) :
    Lasting s ((chat D).alone (createConversation id userId input) s).2 :=
  alone_keeps (chat D) .refl (fun _ _ _ => .trans) (fun a s _ => .act D a s) (fun q s _ => .answer D q s)
    (createConversation_within (A := fun _ => True) (B := fun _ => True) id userId input trivial
      (fun _ => trivial) fun _ _ => trivial) s

/-- A conversation with bare ids for members does not show the other one. -/
theorem not_showsOther_reference {v : User} {status : Option UserStatus} {d : Conversation}
    (h : Between userId v.id d) : ¬ ShowsOther userId v status d.toJSON := fun hshows =>
  hshows.populated (.reference v.id) (List.mem_map_of_mem ((h.members v.id).mpr (.inr rfl))) rfl

theorem Stems.reference {d : Conversation} {s : Server} (hd : d ∈ s.conversations.docs) :
    Stems s d.toJSON := by
  refine ⟨d, hd, rfl, rfl, fun m hm id hid => ?_⟩
  obtain ⟨i, -, rfl⟩ := List.mem_map.mp hm
  cases hid

/-- A conversation put into the list shows the other member only if there is none. -/
theorem labelled_startConversation (h : Labelled userId s) {d : Conversation}
    (hd : d ∈ s.server.conversations.docs) :
    Labelled userId {s with hook := s.hook.startConversation d} ↔
      (∃ c ∈ s.hook.conversations, c.id = d.id) ∨ ∀ v ∈ s.server.users.docs, ¬ Between userId v.id d := by
  by_cases hlisted : s.hook.conversations.any (fun c => c.id == d.id) = true
  · refine iff_of_true ?_ (.inl (by simpa using hlisted))
    simp only [UseConversations.startConversation, if_pos hlisted]
    exact h
  · have hnone : ¬ ∃ c ∈ s.hook.conversations, c.id = d.id := by simpa using hlisted
    simp only [UseConversations.startConversation, if_neg hlisted, hnone, false_or]
    constructor
    · intro hnew v hv hbetween
      exact not_showsOther_reference hbetween (hnew _ List.mem_cons_self d hd rfl v hv hbetween)
    · intro hother c hc d' hd' hid v hv hbetween
      rcases List.mem_cons.mp hc with rfl | hc
      · obtain rfl := s.server.conversations.eq_of_key hd' hd hid
        exact absurd hbetween (hother v hv)
      · exact h c hc d' hd' hid v hv hbetween

theorem Rooted.startConversation (h : Rooted s) {d : Conversation}
    (hd : d ∈ s.server.conversations.docs) : Rooted {s with hook := s.hook.startConversation d} := by
  refine ⟨h.named, fun c hc => ?_⟩
  simp only [UseConversations.startConversation] at hc
  split at hc
  · exact h.stems c hc
  · rcases List.mem_cons.mp hc with rfl | hc
    · exact .reference hd
    · exact h.stems c hc

theorem rooted_step (s : ListSession) (m : ListMove) (h : Rooted s) : Rooted (s.step D userId m) := by
  cases m with
  | serve q => exact h.lasting (.answer D q s.server)
  | refresh => exact ⟨h.named, h.stems⟩
  | refreshed =>
    simp only [ListSession.step]
    split
    · exact h.refreshed ‹_› _
    · exact h
  | refreshFailed message => exact ⟨h.named, h.stems⟩
  | startConversation id input =>
    have hlasting := @Lasting.createConversation D userId id input s.server
    simp only [ListSession.step]
    rcases hcall : (chat D).alone (createConversation id userId input) s.server with ⟨e | d, server⟩
    · rw [hcall] at hlasting
      exact h.lasting hlasting
    · rw [hcall] at hlasting
      exact (h.lasting hlasting).startConversation (createConversation_stored hcall)
  | event e => exact h.on e _

theorem labelled_step (s : ListSession) (m : ListMove) (hr : Rooted s) (h : Labelled userId s) :
    Labelled userId (s.step D userId m) ↔ AddsNoOther D userId s m := by
  cases m with
  | serve q => exact iff_of_true (h.lasting hr (.answer D q s.server)) trivial
  | refresh => exact iff_of_true h trivial
  | refreshed =>
    refine iff_of_true ?_ trivial
    simp only [ListSession.step]
    split
    · exact labelled_refreshed hr ‹_›
    · exact h
  | refreshFailed message => exact iff_of_true h trivial
  | startConversation id input =>
    have hlasting := @Lasting.createConversation D userId id input s.server
    simp only [ListSession.step, AddsNoOther]
    rcases hcall : (chat D).alone (createConversation id userId input) s.server with ⟨e | d, server⟩
    · rw [hcall] at hlasting
      exact iff_of_true (h.lasting hr hlasting) (by simp)
    · rw [hcall] at hlasting
      refine (labelled_startConversation (h.lasting hr hlasting) (createConversation_stored hcall)).trans ?_
      simp only [Except.ok.injEq, forall_eq']
      exact or_congr_right (hlasting.forall_users (p := fun v => ¬ Between userId v d))
  | event e => exact iff_of_true (h.on hr e) trivial

end

/-- **Every conversation with another user is shown as such**, in all states of exactly those
runs in which `startConversation` is never answered with one that is not in the list yet. -/
theorem labelled_iff (D : Deployment) (userId : ObjectId) (server : Server)
    (hnamed : ∀ v ∈ server.users.docs, v.username ≠ []) (moves : List ListMove) :
    Throughout (ListSession.step D userId) (Labelled userId) (.mounted server) moves ↔
      AtEvery (ListSession.step D userId) (AddsNoOther D userId) (.mounted server) moves := by
  have hrooted : Rooted (.mounted server) := ⟨hnamed, fun c hc => by cases hc⟩
  have hlabelled : Labelled userId (.mounted server) := fun c hc => by cases hc
  exact throughout_iff (fun s m => rooted_step s m) (fun s m => labelled_step s m) hrooted hlabelled moves

/-! Ann starts a conversation with Bob, who is online. -/

def listAnn : User := ⟨.ending 1, "ann".toList, "a@x".toList, .online, 0⟩

def listBob : User := ⟨.ending 2, "bob".toList, "b@x".toList, .online, 0⟩

def listServer : Server := .boot ⟨[listAnn, listBob], by decide⟩ .empty .empty 0

def listStart : ListMove :=
  .startConversation (.ending 10) ⟨.oneToOne, none, [listBob.id.toString]⟩

def listStarted : Conversation :=
  ⟨.ending 10, .oneToOne, none, [listAnn.id, listBob.id], none, 0, 0⟩

/-- Bob has started it, and Ann finds it in her list. -/
theorem labelled_iff_found : Throughout (ListSession.step .default listAnn.id) (Labelled listAnn.id)
    (.mounted listServer) [.refresh, .serve (.conversationCreate (.ending 10) .oneToOne none
      [listBob.id.toString, listAnn.id.toString] 0), .refreshed] := by
  refine (labelled_iff .default listAnn.id listServer ?_ _).mpr ?_
  · decide
  · rw [atEvery_cons, atEvery_cons, atEvery_cons]
    exact ⟨trivial, trivial, trivial, atEvery_nil⟩

/-- Ann has started it, and it is labelled `Unknown user`. -/
theorem started_unlabelled : ¬ Throughout (ListSession.step .default listAnn.id) (Labelled listAnn.id)
    (.mounted listServer) [listStart] := by
  intro h
  have hbetween : Between listAnn.id listBob.id listStarted :=
    ⟨rfl, by decide, fun m => by simp [listStarted]⟩
  have hshows := h [listStart] List.prefix_rfl listStarted.toJSON (List.mem_of_getElem? (i := 0) rfl)
    listStarted (List.mem_of_getElem? (i := 0) rfl) rfl listBob (List.mem_of_getElem? (i := 1) rfl) hbetween
  exact absurd hshows.label (by decide)

end RealtimeChat
