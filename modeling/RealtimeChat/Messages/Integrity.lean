import RealtimeChat.Conversations.LastMessage
import RealtimeChat.Messages.Sends
import RealtimeChat.Rooms.Announce

/-! What is stored and what is announced, in every run.

A message belongs to a conversation of its sender's and has a clean text; a last
message is one of its conversation; what is announced is stored, and announced once;
and what is reported as sent has been announced (`integrity_run`). Any query may be
rejected on the way. -/
namespace RealtimeChat
open Data (Text trim Collection)
open Zod (Value)
open Async Async.System

/-- What the database holds of messages fits together. -/
structure Consistent (s : Server) : Prop where
  posted : ∀ m ∈ s.messages.docs, IsMember m.conversationId m.senderId s ∧ CleanText m.text
  linked : Linked s

/-- The payload of an announcement. -/
def announcement : Event chatInterface Failure Call → Option SocketMessagePayload
  | .acted _ (.emit _ (.messageNew payload)) _ => some payload
  | .acted _ (.emitFrom _ _ (.messageNew payload)) _ => some payload
  | _ => none

def announcements (log : Log) : List SocketMessagePayload := log.filterMap announcement

/-- The payload tells of this message; the sender is the one that its id stands for. -/
structure Tells (payload : SocketMessagePayload) (m : Message) (s : Server) : Prop where
  id : payload.id = m.id
  conversationId : payload.conversationId = m.conversationId
  sender : payload.sender = s.populate m.senderId
  text : payload.text = m.text

/-- The messages, their announcements and the reports of their sending agree. -/
structure Integrity (w : World chatInterface Server Failure Call) : Prop where
  consistent : Consistent w.state
  told : ∀ payload ∈ announcements w.log, ∃ m ∈ w.state.messages.docs, Tells payload m w.state
  once : ((announcements w.log).map SocketMessagePayload.id).Nodup
  reported : ∀ pid socket args id response,
    .arrived pid (.event socket .messageSend args id) ∈ w.log →
      .acted pid (.ack response) () ∈ w.log → response.success = true →
      ∃ payload, response.data = some payload ∧
        ((announcements w.log).map SocketMessagePayload.id).count payload.id = 1 ∧
        ∃ room receivers, .acted pid (.emit room (.messageNew payload)) receivers ∈ w.log

/-! ### Messages where they belong -/

/-- Every stored message is where it belongs, and tasks know of memberships what is so. -/
structure Housed (D : Deployment) (w : World chatInterface Server Failure Call) : Prop where
  informed : Informed D w
  posted : ∀ m ∈ w.state.messages.docs, IsMember m.conversationId m.senderId w.state ∧
    CleanText m.text

section
variable {D : Deployment} {w w' : World chatInterface Server Failure Call}

theorem Housed.same (h : Housed D w) (hinformed : Informed D w')
    (hconversations : w'.state.conversations = w.state.conversations)
    (hmessages : w'.state.messages = w.state.messages) : Housed D w' := by
  refine ⟨hinformed, fun m hm => ?_⟩
  obtain ⟨hmember, htext⟩ := h.posted m (hmessages ▸ hm)
  exact ⟨MembersStay.of_conversations hconversations _ _ hmember, htext⟩

/-- The insert of a send, by the law of sending. -/
theorem Informed.inserts (h : Informed D w) {pid : Nat} {call : Call} {k u : ObjectId}
    {spelling text : Text} {t : Nat} {m : Message} {r : Except Failure Message}
    (hlaw : call.law (deeds pid w.log) (.answered (.messageCreate k spelling u text t) r))
    (hm : (Server.answer D (.messageCreate k spelling u text t) w.state).1 = .ok m) :
    IsMember m.conversationId m.senderId w.state ∧ CleanText m.text := by
  obtain ⟨socket, args, id, -, hsend⟩ := Call.law_ofSend hlaw trivial
  obtain ⟨input, c, hparse, rfl, rfl, rfl, rfl, hdeeds⟩ := hsend
  obtain ⟨hcast, hfields, -⟩ := Server.messageCreate_answer hm
  have hfound : .answered pid (.conversationFindOne (.string input.conversationId) socket.userId)
      (.ok (some c)) ∈ w.log := by
    rw [← mem_deeds_answered, hdeeds]
    exact .tail _ (.head _)
  obtain ⟨hcast', hmember⟩ := h.members _ _ _ _ hfound
  have hid : m.conversationId = c.id := Option.some.inj (hcast.symm.trans hcast')
  rw [hfields]
  exact ⟨hid ▸ hmember, sendMessage_text hparse⟩

theorem housed_preserved (D : Deployment) : (chat D).Preserves Call.law (Housed D) where
  acts h ha hlaw := h.same ((informed_preserved D).acts h.informed ha hlaw)
    (Server.act_conversations D _ _) (Server.act_messages D _ _)
  rejects h ha hlaw := h.same ((informed_preserved D).rejects h.informed ha hlaw) rfl rfl
  arrives h hfresh ha := h.same ((informed_preserved D).arrives h.informed hfresh ha)
    (accept_sameBehind ha).conversations (accept_sameBehind ha).messages
  passes h := h.same ((informed_preserved D).passes h.informed) rfl rfl
  answers := by
    intro pid call q w h ha hlaw
    have hstay : MembersStay w.state (Server.answer D q w.state).2 := .answer q w.state
    refine ⟨(informed_preserved D).answers h.informed ha hlaw, fun m hm => ?_⟩
    rcases stored_origin hm with ⟨m', hm', hsame⟩ | ⟨id, spelling, senderId, text, t, heq⟩
    · obtain ⟨hmember, htext⟩ := h.posted m' hm'
      rw [hsame.conversationId, hsame.senderId, hsame.text]
      exact ⟨hstay _ _ hmember, htext⟩
    · obtain ⟨rfl, hanswer⟩ := Sigma.mk.inj heq
      obtain ⟨hmember, htext⟩ := h.informed.inserts hlaw (eq_of_heq hanswer)
      exact ⟨hstay _ _ hmember, htext⟩

theorem housed_run {s : Server} (h : Consistent s) (moves : List (Move Call)) :
    Housed D ((chat D).run (Config.start s) moves).world :=
  preserved_run (housed_preserved D) ⟨⟨by simp, by simp⟩, h.posted⟩ moves

/-! ### Announcements -/

theorem announcement_eq_some {e : Event chatInterface Failure Call} {payload : SocketMessagePayload}
    {later earlier : Log} (h : announcement e = some payload) (hi : Announced w)
    (hlog : w.log = later ++ e :: earlier) : ∃ pid room receivers,
      e = .acted pid (.emit room (.messageNew payload)) receivers ∧
        CreatedBy pid payload.id earlier ∧ ¬ HasAnnounced pid earlier := by
  have hannounced := (Each.at (hlog ▸ hi.each)).1
  cases e with
  | acted pid a r =>
    cases a with
    | emit room event =>
      cases event with
      | messageNew payload' =>
        obtain rfl := Option.some.inj h
        exact ⟨pid, room, r, rfl, hannounced⟩
      | _ => cases h
    | emitFrom other room event =>
      cases event with
      | messageNew payload => exact hannounced.elim
      | _ => cases h
    | _ => cases h
  | _ => cases h

theorem mem_announcements {payload : SocketMessagePayload} {log : Log} :
    payload ∈ announcements log ↔ ∃ e ∈ log, announcement e = some payload := List.mem_filterMap

/-- Each announcement is of a message that no earlier one is of. -/
theorem Announced.announcements_nodup (hi : Announced w) :
    ((announcements w.log).map SocketMessagePayload.id).Nodup := by
  have hsuffix : ∀ later earlier, w.log = later ++ earlier →
      ((announcements earlier).map SocketMessagePayload.id).Nodup := by
    intro later earlier hlog
    induction earlier generalizing later with
    | nil => exact List.nodup_nil
    | cons e rest ih =>
      have hrest := ih (later ++ [e]) (by rw [hlog, List.append_assoc, List.singleton_append])
      rw [announcements, List.filterMap_cons]
      cases he : announcement e with
      | none => exact hrest
      | some payload =>
        obtain ⟨pid, room, receivers, rfl, hcreated, hfirst⟩ := announcement_eq_some he hi hlog
        refine List.nodup_cons.mpr ⟨fun hmem => hfirst ?_, hrest⟩
        -- An announcement below with the same id would be by the same task.
        obtain ⟨payload', hmem', hid⟩ := List.mem_map.mp hmem
        obtain ⟨e', he', hpayload'⟩ := mem_announcements.mp hmem'
        obtain ⟨front, back, rfl⟩ := List.append_of_mem he'
        have hsplit : w.log = (later ++ .acted pid (.emit room (.messageNew payload)) receivers ::
            front) ++ e' :: back := by rw [hlog, List.append_assoc, List.cons_append]
        obtain ⟨pid', room', receivers', rfl, hcreated', -⟩ := announcement_eq_some hpayload' hi hsplit
        have hwhole : CreatedBy pid payload.id w.log := by
          rw [hlog, List.append_cons]
          exact hcreated.append _
        have hwhole' : CreatedBy pid' payload.id w.log := by
          rw [hsplit, List.append_cons, ← hid]
          exact hcreated'.append _
        rw [hi.creator pid pid' payload.id hwhole hwhole']
        exact ⟨room', payload', receivers', he'⟩
  exact hsuffix [] w.log rfl

/-- What is announced is a message that its task has stored, with the sender it has found. -/
theorem Behaved.announcement {c : Config chatInterface Server Failure Call Response} (h : Behaved c)
    (hi : Announced c.world) {payload : SocketMessagePayload}
    (hmem : payload ∈ announcements c.world.log) : ∃ pid m t sender,
      payload = toSocketPayload ⟨m, sender⟩ ∧ Inserted pid m t c.world.log ∧
        .answered pid (.messagePopulate m.senderId) (.ok sender) ∈ c.world.log := by
  obtain ⟨e, he, hpayload⟩ := mem_announcements.mp hmem
  obtain ⟨later, earlier, hlog⟩ := List.append_of_mem he
  obtain ⟨pid, room, receivers, rfl, -, -⟩ := announcement_eq_some hpayload hi hlog
  obtain ⟨socket, args, id, task, input, conversation, t, m, t', sender, -, -, -, rfl, hdeeds⟩ :=
    h.announced hlog
  obtain ⟨hinserted, hpopulated⟩ := announced_inserted hlog hdeeds
  exact ⟨pid, m, t, sender, rfl, ⟨_, _, _, _, hinserted⟩, hpopulated⟩

end

/-- **Integrity.** In every run from a consistent database, whatever is interleaved and
whatever fails, messages, last messages, announcements and reports fit together. -/
theorem integrity_run (D : Deployment) (users : Users) (conversations : Conversations)
    (messages : Messages) (clock : Nat)
    (hstart : Consistent (Server.boot users conversations messages clock))
    (moves : List (Move Call)) : Integrity ((chat D).run (Config.start
      (Server.boot users conversations messages clock)) moves).world := by
  generalize Server.boot users conversations messages clock = s at hstart
  have hbehaved := behaved_run D s moves
  have hpresent := (Present.start s).run (chat D) moves
  have hannounced := announced_run D s moves
  have hbooked := booked_run D s moves
  have hhoused : Housed D _ := housed_run hstart moves
  have hlinked := linked_run D hstart.linked moves
  generalize (chat D).run (Config.start s) moves = c at *
  have honce := hannounced.announcements_nodup
  refine ⟨⟨hhoused.posted, hlinked⟩, ?_, honce, ?_⟩
  · intro payload hmem
    obtain ⟨pid, m, t, sender, rfl, hinserted, hpopulated⟩ :=
      hbehaved.announcement hannounced hmem
    obtain ⟨m', hm', hsame⟩ := hbooked.inserted pid m t hinserted
    refine ⟨m', hm', hsame.id.symm, hsame.conversationId.symm, ?_, hsame.text.symm⟩
    rw [hsame.senderId]
    exact hhoused.informed.senders pid m.senderId sender hpopulated
  · intro pid socket args id response harrived hack hsuccess
    obtain ⟨later, earlier, hlog⟩ := List.append_of_mem hack
    obtain ⟨call, task, hentry, hlaw⟩ := hbehaved.law hlog rfl
    obtain ⟨task', hentry'⟩ := hpresent pid _ harrived
    obtain ⟨rfl, -⟩ : call = .event socket .messageSend args id ∧ task = task' := by
      simpa using hentry.symm.trans hentry'
    rcases hlaw with ⟨hfailed, -⟩ | ⟨input, conversation, t, m, t', sender, receivers, -, rfl, hdeeds⟩
    · rw [hsuccess] at hfailed
      cases hfailed
    · have hemit : .acted pid (.emit input.conversationId (.messageNew (toSocketPayload ⟨m, sender⟩)))
          receivers ∈ c.world.log := by
        rw [hlog]
        refine List.mem_append_right _ (.tail _ (mem_deeds_acted.mp ?_))
        rw [show deeds pid earlier = _ from hdeeds]
        exact .head _
      refine ⟨_, rfl, List.count_eq_one_of_mem honce ?_, _, _, hemit⟩
      exact List.mem_map_of_mem (mem_announcements.mpr ⟨_, hemit, rfl⟩)

/-- One stored message, and `capitalRun` (`Rooms/Announce.lean`) after it. -/
theorem integrity_run_capitals : Integrity ((chat .default).run (Config.start (Server.boot .empty
    ⟨[⟨.ending 10, .oneToOne, none, [.ending 1, .ending 2], some (.ending 5), 0, 0⟩], by decide⟩
    ⟨[⟨.ending 5, .ending 10, .ending 2, "a > b".toList, .sent, 0, 0⟩], by decide⟩ 0))
    capitalRun).world := by
  apply integrity_run
  refine ⟨fun m hm => ?_, fun c hc id hid => ?_⟩
  · rw [List.mem_singleton.mp hm]
    exact ⟨⟨_, List.mem_singleton_self _, rfl, by decide⟩, by decide, rfl, by decide, by decide⟩
  · rw [List.mem_singleton.mp hc] at hid ⊢
    exact ⟨_, List.mem_singleton_self _, Option.some.inj hid, rfl⟩

end RealtimeChat
