import RealtimeChat.Client.UseConversations
import RealtimeChat.Conversations.Newest
import RealtimeChat.Conversations.View
import RealtimeChat.Handlers.Completion
import RealtimeChat.Messages.Integrity

/-! The order of the conversations at a client (`frontend-ui/src/hooks/useConversations.ts`).

The server sorts the conversations by `updatedAt`, which a message sets when its
conversation is saved; the client moves a conversation to the front when it hears of the
message. If it hears of them in the order in which they were saved, its list is the one
that the server would send by now (`bumped_eq_listed`). -/
namespace RealtimeChat
open Data (Text trim Collection Touch toFront map_toFront)
open Async Async.System
open Server (answer_conversations)

/-- `conversation.save()` in `createMessage`. -/
structure Save where
  conversation : ObjectId
  lastMessage : ObjectId
  updatedAt : Nat

/-- The saves that got through, first to last. -/
def saves : Log → List Save
  | [] => []
  | .answered _ (.conversationSave id lastMessage now) (.ok ()) :: earlier =>
    saves earlier ++ [⟨id, lastMessage, now⟩]
  | _ :: earlier => saves earlier

/-- The messages created since, in the conversations that the user had: by their saves. -/
def createdSince (userId : ObjectId) (w₀ w : World chatInterface Server Failure Call) : List Save :=
  ((saves w.log).drop (saves w₀.log).length).filter fun m =>
    (conversationsFor userId w₀.state).any fun c => c.id == m.conversation

def newMessages (events : List ServerEvent) : List SocketMessagePayload :=
  events.filterMap fun
    | .messageNew payload => some payload
    | _ => none

/-- Between two calls of `listConversations`, messages are created in the conversations of
the user, and the user's client hears of them in their order. -/
structure KeptPosted (userId : ObjectId) (w₀ w : World chatInterface Server Failure Call)
    (events : List ServerEvent) : Prop where
  /-- No two of the conversations have been updated at the same time. -/
  distinct : ((conversationsFor userId w₀.state).map Conversation.updatedAt).Nodup
  /-- There are no others by now. -/
  listed : ∀ c ∈ conversationsFor userId w.state, c.id ∈ (conversationsFor userId w₀.state).map Conversation.id
  later : ∀ m ∈ createdSince userId w₀ w, ∀ c ∈ conversationsFor userId w₀.state, c.updatedAt < m.updatedAt
  increasing : (createdSince userId w₀ w).Pairwise fun m m' => m.updatedAt < m'.updatedAt
  heard : List.Forall₂ (fun payload m => payload ∈ announcements w.log ∧ payload.id = m.lastMessage)
    (newMessages events) (createdSince userId w₀ w)

abbrev Preview := ObjectId × Option (Option ObjectId × Option Text)

/-- The id of a conversation, and the id and the text of its last message. -/
def ClientConversation.preview (c : ClientConversation) : Preview :=
  (c.id, c.lastMessage.map fun m => (m.id, m.text))

/-- No conversation twice, and all as they would be listed anew. -/
structure UpToDate (s : UseConversations) (fresh : List ConversationWithUnreadCount) : Prop where
  once : (s.conversations.map ClientConversation.id).Nodup
  same : s.conversations.map ClientConversation.preview = fresh.map fun c => c.toJSON.preview

/-! ### What is saved -/

def Save.touch (m : Save) : Touch Conversation.id Conversation.updatedAt where
  target := m.conversation
  moment := m.updatedAt
  update c := {c with lastMessage := some m.lastMessage, updatedAt := m.updatedAt}
  keeps _ := rfl
  dates _ := rfl

section
variable {D : Deployment} {w₀ w w' : World chatInterface Server Failure Call}

theorem saves_cons {e : Event chatInterface Failure Call}
    (he : ∀ pid id lastMessage t, e ≠ .answered pid (.conversationSave id lastMessage t) (.ok ()))
    (log : Log) : saves (e :: log) = saves log := by
  cases e with
  | answered pid q r =>
    cases q with
    | conversationSave id lastMessage t =>
      cases r with
      | ok u => exact absurd rfl (he pid id lastMessage t)
      | error e => rfl
    | _ => rfl
  | _ => rfl

theorem mem_saves {m : Save} {log : Log} : m ∈ saves log ↔
    ∃ pid, .answered pid (.conversationSave m.conversation m.lastMessage m.updatedAt) (.ok ()) ∈ log := by
  fun_induction saves log with
  | case1 => simp
  | case2 pid id lastMessage now earlier ih =>
    rw [List.mem_append, ih, List.mem_singleton]
    constructor
    · intro h
      rcases h with ⟨pid', h⟩ | rfl
      · exact ⟨pid', .tail _ h⟩
      · exact ⟨pid, .head _⟩
    · intro h
      obtain ⟨pid', h⟩ := h
      rcases List.mem_cons.mp h with heq | h
      · cases heq
        exact .inr rfl
      · exact .inl ⟨pid', h⟩
  | case3 e earlier he ih =>
    rw [ih]
    refine exists_congr fun pid => ?_
    rw [List.mem_cons, or_iff_right]
    exact fun heq => he _ _ _ _ heq.symm

/-- Messages stay, and conversations are as they were saved last; there may be new ones. -/
structure Since (w₀ w : World chatInterface Server Failure Call) : Prop where
  kept : ∀ m ∈ w₀.state.messages.docs, Kept m w.state
  saved : ∃ new more, saves w.log = saves w₀.log ++ new ∧ w.state.conversations.docs =
    w₀.state.conversations.docs.map (Touch.applyAll (new.map Save.touch)) ++ more

theorem Since.refl (w : World chatInterface Server Failure Call) : Since w w := by
  refine ⟨fun m hm => ⟨m, hm, .refl m⟩, [], [], (List.append_nil _).symm, ?_⟩
  rw [List.append_nil]
  exact (List.map_id _).symm

theorem Since.same (h : Since w₀ w) (hlog : saves w'.log = saves w.log)
    (hconversations : w'.state.conversations = w.state.conversations)
    (hmessages : w'.state.messages = w.state.messages) : Since w₀ w' := by
  refine ⟨fun m hm => ?_, ?_⟩
  · rw [Kept, hmessages]
    exact h.kept m hm
  · rw [hlog, hconversations]
    exact h.saved

theorem saveConversation_docs (m : Save) (s : Server) :
    (s.saveConversation m.conversation m.lastMessage m.updatedAt).conversations.docs =
      s.conversations.docs.map m.touch.apply := by
  unfold Server.saveConversation Touch.apply
  simp only [Collection.modify_docs, beq_iff_eq]
  rfl

theorem Since.answer (h : Since w₀ w) (pid : Nat) (q : Query) :
    Since w₀ ((chat D).respond pid q w) := by
  refine ⟨fun m hm => (h.kept m hm).answer q, ?_⟩
  obtain ⟨new, more, hlog, hdocs⟩ := h.saved
  by_cases hq : ∃ id lastMessage t, q = .conversationSave id lastMessage t
  · obtain ⟨id, lastMessage, t, rfl⟩ := hq
    refine ⟨new ++ [⟨id, lastMessage, t⟩], more.map (Save.touch ⟨id, lastMessage, t⟩).apply, ?_, ?_⟩
    · rw [← List.append_assoc, ← hlog]
      rfl
    · refine (saveConversation_docs ⟨id, lastMessage, t⟩ w.state).trans ?_
      rw [hdocs, List.map_append, List.map_append, List.map_map]
      refine congrArg (· ++ _) (List.map_congr_left fun c _ => ?_)
      simp [Touch.applyAll]
  · have hsaves : saves ((chat D).respond pid q w).log = saves w₀.log ++ new := by
      rw [← hlog]
      refine saves_cons (fun pid' id lastMessage t heq => ?_) w.log
      injection heq with _ hq'
      exact hq ⟨id, lastMessage, t, hq'⟩
    rw [hsaves]
    show ∃ new' more, _ ∧ (Server.answer D q w.state).2.conversations.docs = _
    cases answer_conversations D q w.state with
    | same hsame => exact ⟨new, more, rfl, by rw [hsame, hdocs]⟩
    | @created id type name memberIds now members _ hcast hanswer hinsert =>
      refine ⟨new, more ++ [⟨id, type, name.map trim, members, none, now, now⟩], rfl, ?_⟩
      rw [(Collection.insert_eq_some hinsert).1, hdocs, List.append_assoc]
    | saved hsaved => exact absurd ⟨_, _, _, rfl⟩ hq

theorem since_preserved (D : Deployment) (w₀ : World chatInterface Server Failure Call) :
    (chat D).Preserves Call.law (Since w₀) where
  acts h _ _ := h.same (saves_cons (by simp) _) (Server.act_conversations D _ _)
    (Server.act_messages D _ _)
  rejects := by
    intro pid call q w h _ _
    refine h.same (saves_cons (fun pid' id lastMessage t heq => ?_) _) rfl rfl
    injection heq with _ hq hanswer
    subst hq
    cases eq_of_heq hanswer
  arrives h _ ha := h.same (saves_cons (by simp) _) (accept_sameBehind ha).conversations
    (accept_sameBehind ha).messages
  passes h := h.same rfl rfl rfl
  answers h _ _ := h.answer _ _

/-- Any part of a run, from its first state. -/
theorem Behaved.since {c : Config chatInterface Server Failure Call Response} (h : Behaved c)
    (D : Deployment) (moves : List (Move Call)) : Since c.world ((chat D).run c moves).world :=
  (since_preserved D c.world).run (body_obeys D) h (.refl _) moves

/-! ### What is listed -/

theorem conversationsFor_nodup (userId : ObjectId) (s : Server) :
    ((conversationsFor userId s).map Conversation.id).Nodup :=
  s.conversations.distinct.sublist (List.filter_sublist.map _)

theorem members_touched (touches : List Save) (c : Conversation) :
    (Touch.applyAll (touches.map Save.touch) c).members = c.members := by
  induction touches generalizing c with
  | nil => rfl
  | cons m rest ih =>
    refine (ih (m.touch.apply c)).trans ?_
    unfold Touch.apply
    split <;> rfl

/-- The conversations of the user are those that the user had, as they were saved last. -/
theorem Since.conversationsFor (h : Since w₀ w) {userId : ObjectId}
    (hlisted : ∀ c ∈ conversationsFor userId w.state,
      c.id ∈ (conversationsFor userId w₀.state).map Conversation.id) :
    conversationsFor userId w.state = (conversationsFor userId w₀.state).map
      (Touch.applyAll ((createdSince userId w₀ w).map Save.touch)) := by
  obtain ⟨new, more, hlog, hdocs⟩ := h.saved
  -- A conversation that is new would share its id with one of those that were there.
  have hmore : more.filter (fun c => c.members.contains userId) = [] := by
    rw [List.filter_eq_nil_iff]
    intro c hc hmember
    have hmem : c ∈ w.state.conversations.docs := hdocs ▸ List.mem_append_right _ hc
    obtain ⟨c₀, hc₀, hid⟩ := List.mem_map.mp
      (hlisted c (mem_conversationsFor.mpr ⟨hmem, List.contains_iff_mem.mp hmember⟩))
    have hdistinct := w.state.conversations.distinct
    rw [hdocs, List.map_append, List.nodup_append] at hdistinct
    refine hdistinct.2.2 _ (List.mem_map_of_mem (List.mem_map_of_mem (mem_conversationsFor.mp hc₀).1))
      _ (List.mem_map_of_mem hc) ?_
    exact (Touch.key_applyAll _ c₀).trans hid
  have hcreated : createdSince userId w₀ w = new.filter fun m =>
      (RealtimeChat.conversationsFor userId w₀.state).any fun c => c.id == m.conversation := by
    rw [createdSince, hlog, List.drop_left]
  have hmembers : (fun c : Conversation => c.members.contains userId) ∘
      Touch.applyAll (new.map Save.touch) = fun c => c.members.contains userId := by
    funext c
    rw [Function.comp_apply, members_touched]
  rw [RealtimeChat.conversationsFor, hdocs, List.filter_append, hmore, List.append_nil,
    List.filter_map, hmembers]
  refine List.map_congr_left fun c hc => ?_
  have hfilter := @Touch.applyAll_filter _ _ _ _ _ (fun t => (RealtimeChat.conversationsFor userId
    w₀.state).any fun c => c.id == t.target) c (new.map Save.touch) fun t _ htarget =>
      List.any_eq_true.mpr ⟨c, hc, beq_iff_eq.mpr htarget⟩
  rw [hcreated, ← hfilter, List.filter_map]
  rfl

/-- The preview of a conversation, populated from the database. -/
def previewIn (s : Server) (c : Conversation) : Preview :=
  (c.id, (c.lastMessage.bind s.messages.find).map fun m => (some m.id, some m.text))

theorem listed_preview {userId : ObjectId} {s : Server} {list : List ConversationWithUnreadCount}
    (h : ((chat D).alone (listConversations userId) s).1 = .ok list) :
    list.map (fun c => c.toJSON.preview) =
      (D.byUpdate.sort (conversationsFor userId s)).map (previewIn s) := by
  rw [listConversations_alone] at h
  obtain rfl := Except.ok.inj h
  have hpreview : ∀ c n, (ConversationWithUnreadCount.mk (s.populateConversation c) n).toJSON.preview =
      previewIn s c := by
    intro c n
    refine Prod.ext rfl ?_
    show ((c.lastMessage.bind s.messages.find).map ClientLastMessage.document).map _ = _
    rw [Option.map_map]
    rfl
  unfold conversationsFor
  generalize D.byUpdate.sort (s.conversations.docs.filter fun c => c.members.contains userId) = sorted
  cases sorted with
  | nil => rfl
  | cons c rest =>
    rw [if_neg (by simp), List.map_map, List.map_map]
    exact List.map_congr_left fun c _ => hpreview c _

/-! ### What is shown -/

/-- The payload is of the message that the conversation has been saved with. -/
structure Tidings (s : Server) (payload : SocketMessagePayload) (m : Save) : Prop where
  conversation : payload.conversationId = m.conversation
  message : ∃ d, s.messages.find m.lastMessage = some d ∧ d.id = payload.id ∧ d.text = payload.text

section
variable {s : Server} {shown : UseConversations} {docs : List Conversation}

/-- A message moves its conversation to the front, here as there. -/
theorem bump_preview {payload : SocketMessagePayload} {m : Save} (h : Tidings s payload m)
    (hshown : shown.conversations.map ClientConversation.preview = docs.map (previewIn s)) :
    (shown.bumpConversationWithMessage payload).conversations.map ClientConversation.preview =
      (m.touch.toFront docs).map (previewIn s) := by
  obtain ⟨d, hd, hid, htext⟩ := h.message
  let latest : Preview → Preview := fun p => (p.1, some (some payload.id, some payload.text))
  have hclient : (shown.bumpConversationWithMessage payload).conversations.map
      ClientConversation.preview = toFront (fun p => p.1 == payload.conversationId) latest
        (shown.conversations.map ClientConversation.preview) := by
    rw [UseConversations.bump_conversations]
    exact map_toFront _ _ (fun c => rfl) fun c _ _ => rfl
  have hserver : (m.touch.toFront docs).map (previewIn s) =
      toFront (fun p => p.1 == payload.conversationId) latest (docs.map (previewIn s)) := by
    show (toFront _ _ docs).map _ = _
    refine map_toFront _ _ (fun c => ?_) fun c _ _ => ?_
    · rw [h.conversation]
      rfl
    · show (c.id, some (some payload.id, some payload.text)) =
        (c.id, Option.map _ (s.messages.find m.lastMessage))
      rw [hd, ← hid, ← htext]
      rfl
  rw [hclient, hserver, hshown]

/-- What is no message leaves the previews alone. -/
theorem on_preview {e : ServerEvent} (he : newMessages [e] = []) :
    (shown.on e).conversations.map ClientConversation.preview =
      shown.conversations.map ClientConversation.preview := by
  cases e with
  | messageNew payload => cases he
  | userOnline payload => exact List.map_map
  | userOffline payload => exact List.map_map
  | _ => rfl

theorem onAll_preview {events : List ServerEvent} {created : List Save}
    (h : List.Forall₂ (Tidings s) (newMessages events) created)
    (hshown : shown.conversations.map ClientConversation.preview = docs.map (previewIn s)) :
    (shown.onAll events).conversations.map ClientConversation.preview =
      (Touch.toFrontAll (created.map Save.touch) docs).map (previewIn s) := by
  induction events generalizing shown docs created with
  | nil =>
    cases h
    exact hshown
  | cons e rest ih =>
    show ((shown.on e).onAll rest).conversations.map _ = _
    by_cases he : newMessages [e] = []
    · refine ih ?_ ((on_preview he).trans hshown)
      rwa [← List.singleton_append, newMessages, List.filterMap_append, ← newMessages, he] at h
    · cases e with
      | messageNew payload =>
        cases h with
        | cons hhead htail =>
          have hrest := ih htail (bump_preview hhead hshown)
          exact hrest
      | _ => exact absurd rfl he

end

/-! ### From the refresh on -/

/-- A payload with the id of the message of a save is of that message. -/
theorem Behaved.tidings {c : Config chatInterface Server Failure Call Response} (hb : Behaved c)
    {start : Messages} (hbooked : Booked start c.world) (hinformed : Informed D c.world)
    (hannounced : Announced c.world) {payload : SocketMessagePayload} {m : Save}
    (hpayload : payload ∈ announcements c.world.log) (hm : m ∈ saves c.world.log)
    (hid : payload.id = m.lastMessage) : Tidings c.world.state payload m := by
  obtain ⟨pid, d, t, sender, rfl, hinserted, -⟩ := hb.announcement hannounced hpayload
  obtain ⟨pid', hsave⟩ := mem_saves.mp hm
  obtain ⟨d', t', hinserted', hid', hconversation, -⟩ := hb.saved hbooked hinformed hsave
  obtain ⟨stored, hstored, hsame⟩ := hbooked.inserted pid d t hinserted
  have hkept : Kept d c.world.state := ⟨stored, hstored, hsame⟩
  obtain ⟨common, hcommon, hcommon'⟩ :=
    hkept.common (hbooked.inserted pid' d' t' hinserted') (hid.trans hid'.symm)
  constructor
  · exact (hcommon.conversationId.symm.trans hcommon'.conversationId).trans hconversation
  · refine ⟨stored, Collection.find_eq_some.mpr ⟨hstored, ?_⟩, hsame.id, hsame.text⟩
    exact hsame.id.trans hid

/-- What a conversation was populated with is what it would be populated with by now. -/
theorem Since.previewIn (h : Since w₀ w) (hlinked : Linked w₀.state) {c : Conversation}
    (hc : c ∈ w₀.state.conversations.docs) : previewIn w₀.state c = previewIn w.state c := by
  unfold RealtimeChat.previewIn
  cases hlast : c.lastMessage with
  | none => rfl
  | some id =>
    obtain ⟨m, hm, hid, -⟩ := hlinked c hc id hlast
    obtain ⟨m', hm', hsame⟩ := h.kept m hm
    have hfind : w₀.state.messages.find id = some m := Collection.find_eq_some.mpr ⟨hm, hid⟩
    have hfind' : w.state.messages.find id = some m' :=
      Collection.find_eq_some.mpr ⟨hm', hsame.id.trans hid⟩
    simp only [Option.bind_some, hfind, hfind', Option.map_some, hsame.id, hsame.text]

/-- The conversations of the refresh, in the order of now. -/
theorem KeptPosted.sorted {userId : ObjectId} {events : List ServerEvent}
    (h : KeptPosted userId w₀ w events) (hsince : Since w₀ w) :
    D.byUpdate.sort (conversationsFor userId w.state) =
      Touch.toFrontAll ((createdSince userId w₀ w).map Save.touch)
        (D.byUpdate.sort (conversationsFor userId w₀.state)) := by
  rw [hsince.conversationsFor h.listed]
  refine Touch.sort_touched D.byUpdate (conversationsFor_nodup userId w₀.state) h.distinct ?_ ?_
  · intro t ht c hc
    obtain ⟨m, hm, rfl⟩ := List.mem_map.mp ht
    exact h.later m hm c hc
  · exact List.pairwise_map.mpr h.increasing

theorem KeptPosted.tidings {userId : ObjectId} {events : List ServerEvent}
    {c : Config chatInterface Server Failure Call Response} (h : KeptPosted userId w₀ c.world events)
    (hb : Behaved c) {start : Messages} (hbooked : Booked start c.world)
    (hinformed : Informed D c.world) (hannounced : Announced c.world) :
    List.Forall₂ (Tidings c.world.state) (newMessages events) (createdSince userId w₀ c.world) := by
  have hsaves : ∀ m ∈ createdSince userId w₀ c.world, m ∈ saves c.world.log := fun m hm =>
    List.mem_of_mem_drop (List.mem_of_mem_filter hm)
  have hboth := ((List.forall₂_and_left _ _).mpr ⟨hsaves, h.heard.flip⟩).flip
  refine hboth.imp fun payload m hm => ?_
  exact hb.tidings hbooked hinformed hannounced hm.2.1 hm.1 hm.2.2

theorem Since.refreshed_preview (h : Since w₀ w) (hlinked : Linked w₀.state) {userId : ObjectId}
    {list : List ConversationWithUnreadCount}
    (hlist : ((chat D).alone (listConversations userId) w₀.state).1 = .ok list)
    (hook : UseConversations) :
    (hook.refreshed list).conversations.map ClientConversation.preview =
      (D.byUpdate.sort (RealtimeChat.conversationsFor userId w₀.state)).map
        (RealtimeChat.previewIn w.state) := by
  refine (List.map_map.trans (listed_preview hlist)).trans (List.map_congr_left fun c hc => ?_)
  exact h.previewIn hlinked (mem_conversationsFor.mp ((D.byUpdate.perm _).mem_iff.mp hc)).1

/-- A client that shows what is listed shows no conversation twice. -/
theorem UpToDate.of_same {userId : ObjectId} {s : Server} {shown : UseConversations}
    {fresh : List ConversationWithUnreadCount}
    (hfresh : ((chat D).alone (listConversations userId) s).1 = .ok fresh)
    (hsame : shown.conversations.map ClientConversation.preview =
      fresh.map fun c => c.toJSON.preview) : UpToDate shown fresh := by
  refine ⟨?_, hsame⟩
  have honce : ((D.byUpdate.sort (conversationsFor userId s)).map Conversation.id).Nodup := by
    rw [((D.byUpdate.perm _).map Conversation.id).nodup_iff]
    exact conversationsFor_nodup userId s
  have hids : (shown.conversations.map ClientConversation.preview).map Prod.fst =
      (D.byUpdate.sort (conversationsFor userId s)).map Conversation.id := by
    rw [hsame, listed_preview hfresh, List.map_map]
    rfl
  rw [← hids, List.map_map] at honce
  exact honce

/-- **The list at the client is the list at the server**: after a refresh, as long as messages
come in the order in which their conversations were saved. -/
theorem bumped_eq_listed (D : Deployment) (s : Server) (hlinked : Linked s) (userId : ObjectId)
    (before moves : List (Move Call)) (w₀ w : World chatInterface Server Failure Call)
    (hw₀ : w₀ = ((chat D).run (Config.start s) before).world)
    (hw : w = ((chat D).run (Config.start s) (before ++ moves)).world)
    (list fresh : List ConversationWithUnreadCount)
    (hlist : ((chat D).alone (listConversations userId) w₀.state).1 = .ok list)
    (hfresh : ((chat D).alone (listConversations userId) w.state).1 = .ok fresh)
    (hook : UseConversations) (events : List ServerEvent) (h : KeptPosted userId w₀ w events) :
    UpToDate ((hook.refreshed list).onAll events) fresh := by
  have hsince : Since w₀ w := by
    rw [hw₀, hw, run_append]
    exact (behaved_run D s before).since D moves
  have hlinked₀ : Linked w₀.state := hw₀ ▸ linked_run D hlinked before
  have htidings : List.Forall₂ (Tidings w.state) (newMessages events)
      (createdSince userId w₀ w) := by
    subst hw
    exact h.tidings (behaved_run D s _) (booked_run D s _) (pointing_run D s _).informed
      (announced_run D s _)
  refine UpToDate.of_same hfresh ?_
  rw [onAll_preview htidings (hsince.refreshed_preview hlinked₀ hlist hook), listed_preview hfresh,
    h.sorted hsince]

end

/-! Ann has two conversations, and writes to the one that was second. -/

def twoConversations : Server := .boot .empty
  ⟨[⟨.ending 10, .oneToOne, none, [.ending 1, .ending 2], none, 0, 1⟩,
    ⟨.ending 11, .oneToOne, none, [.ending 1, .ending 3], none, 0, 2⟩], by decide⟩ .empty 5

def twoMoves : List (Move Call) :=
  [.arrive (.connect orderAnn), orderSend orderAnn "hi" (.ending 4)] ++ Move.rounds 1 4

def twoWorld : World chatInterface Server Failure Call :=
  ((chat .default).run (Config.start twoConversations) twoMoves).world

def twoPayload : SocketMessagePayload :=
  ⟨.ending 4, .ending 10, none, "hi".toList, .sent, IsoDate.toISOString 5, IsoDate.toISOString 5⟩

theorem twoConversations_posted :
    KeptPosted (.ending 1) ⟨twoConversations, []⟩ twoWorld [.messageNew twoPayload] where
  distinct := by decide +kernel
  listed := by decide +kernel
  later := by decide +kernel
  increasing := by decide +kernel
  heard := by
    have hcreated : createdSince (.ending 1) ⟨twoConversations, []⟩ twoWorld =
        [⟨.ending 10, .ending 4, 5⟩] := rfl
    rw [hcreated]
    exact .cons ⟨List.mem_of_getElem? (i := 0) rfl, rfl⟩ .nil

theorem bumped_eq_listed_two : ∃ list fresh,
    ((chat .default).alone (listConversations (.ending 1)) twoConversations).1 = .ok list ∧
    ((chat .default).alone (listConversations (.ending 1)) twoWorld.state).1 = .ok fresh ∧
    UpToDate ((UseConversations.mounted.refreshed list).onAll [.messageNew twoPayload]) fresh := by
  have hlinked : Linked twoConversations := by
    intro c hc id hid
    rcases List.mem_cons.mp hc with rfl | hc
    · cases hid
    · rw [List.mem_singleton.mp hc] at hid
      cases hid
  refine ⟨_, _, rfl, rfl, ?_⟩
  exact bumped_eq_listed .default twoConversations hlinked (.ending 1) [] twoMoves
    ⟨twoConversations, []⟩ twoWorld rfl rfl _ _ rfl rfl .mounted _ twoConversations_posted

end RealtimeChat
