import RealtimeChat.Async.Alone
import RealtimeChat.Handlers.Chat

/-! Walking through the history of a conversation.

A client asks for the latest messages, and then for those before the cursor it was
given, until there are no more. The cursor is the `createdAt` of the last message of
a page, and the next page begins strictly before it: the walk is complete exactly
if no page ends between two messages of the same millisecond
(`history_complete_iff`). -/
namespace RealtimeChat
open Data (Text Descending latestFirst Untied)
open Async Async.System

section
variable (D : Deployment) (conversationId : Text) (limit : Nat) (s : Server)

/-- The pages that a client gets, on a database that nobody writes to: each answer's
`nextCursor` is the next request's `before`. `none` if `fuel` requests are not enough. -/
def history : Nat → Option Text → Option (List PopulatedMessage)
  | 0, _ => none
  | fuel + 1, before =>
    match ((chat D).alone (getMessageHistory conversationId limit before) s).1 with
    | .ok page =>
      if page.hasMore then (history fuel page.nextCursor).map (page.messages ++ ·)
      else some page.messages
    | .error _ => none

/-- The messages of a conversation. -/
def messagesOf (id : ObjectId) : List Message :=
  s.messages.docs.filter fun m => m.conversationId == id

/-- The walk ends, and returns every message of the conversation once, latest first. -/
def HistoryComplete (id : ObjectId) : Prop :=
  ∃ fuel out, history D conversationId limit s fuel none = some out ∧
    (out.map (·.message)).Perm (messagesOf s id) ∧
    (out.map (·.message)).Pairwise fun a b => b.createdAt ≤ a.createdAt

/-- What a page is cut from. -/
def matching (id : ObjectId) (before : Option Int) : List Message :=
  s.messages.docs.filter fun m =>
    m.conversationId == id && before.all fun t => decide ((m.createdAt : Int) < t)

def populated (m : Message) : PopulatedMessage := ⟨m, s.populate m.senderId⟩

variable {D conversationId limit s} {id : ObjectId}

theorem getMessageHistory_alone (hid : ObjectId.cast conversationId = some id)
    {before : Option Text} {cursor : Option Int} (hcursor : cursorOf before = cursor.map some) :
    (chat D).alone (getMessageHistory conversationId limit before) s =
      (.ok (pageOf (((D.byCreation.sort (matching s id cursor)).take (limit + 1)).map
        (populated s)) limit), s) := by
  have hanswer : Server.answer D (.messageFind conversationId (cursorOf before) (limit + 1)) s =
      (.ok (s.findPage D id cursor (limit + 1)), s) := by
    rw [hcursor]
    simp only [Server.answer, hid, Server.casting]
    cases cursor <;> rfl
  show (chat D).alone ((query (.messageFind conversationId (cursorOf before) (limit + 1))).bind
    fun messages => .ret (pageOf messages limit)) s = _
  rw [alone_bind, alone_query, show (chat D).answer = Server.answer D from rfl, hanswer]
  rfl

/-- The cursor of a message, as the next request is answered. -/
theorem cursorOf_toISOString {t : Nat} (ht : t ≤ 8640000000000000) :
    cursorOf (some (IsoDate.toISOString t)) = some (some (t : Int)) := by
  have hparse := IsoDate.parse_toISOString t ht
  have hne : (IsoDate.toISOString t).isEmpty = false := by
    cases h : IsoDate.toISOString t with
    | nil =>
      have hnone : IsoDate.parse [] = none := by decide
      rw [h, hnone] at hparse
      cases hparse
    | cons c rest => rfl
  simp only [cursorOf, Option.filter, hne, Bool.not_false, if_true, Option.map_some, hparse]

/-- Below a cursor that is itself below the last one. -/
theorem matching_below {cursor : Option Int} {last : Message}
    (hlast : last ∈ matching s id cursor) : matching s id (some (last.createdAt : Int)) =
      (matching s id cursor).filter fun m => decide (m.createdAt < last.createdAt) := by
  have hbelow := (List.mem_filter.mp hlast).2
  unfold matching
  rw [List.filter_filter]
  apply List.filter_congr
  intro m _
  cases cursor with
  | none => simp [Bool.and_comm]
  | some t =>
    simp only [Option.all_some, Bool.and_eq_true, beq_iff_eq, decide_eq_true_eq] at hbelow ⊢
    rw [Bool.eq_iff_iff]
    simp only [Bool.and_eq_true, beq_iff_eq, decide_eq_true_eq]
    constructor
    · intro h
      obtain ⟨hm, hlt⟩ := h
      exact ⟨by omega, hm, by omega⟩
    · intro h
      obtain ⟨hlt, hm, _⟩ := h
      exact ⟨hm, by omega⟩

/-- The page before a cut. -/
theorem pageOf_more {f : Message → PopulatedMessage} (hf : ∀ m, (f m).message = m)
    {front back : List Message} {last : Message} (hlimit : (front ++ [last]).length = limit)
    (hback : back ≠ []) : pageOf ((((front ++ [last]) ++ back).take (limit + 1)).map f) limit =
      ⟨(front ++ [last]).map f, true, some (IsoDate.toISOString last.createdAt)⟩ := by
  cases back with
  | nil => exact absurd rfl hback
  | cons b rest =>
    have htake : ((front ++ [last]) ++ b :: rest).take (limit + 1) = (front ++ [last]) ++ [b] := by
      rw [← hlimit, List.take_length_add_append]
      rfl
    have hpage : (((front ++ [last]) ++ [b]).map f).take limit = (front ++ [last]).map f := by
      rw [List.map_append, ← hlimit, ← List.length_map f, List.take_left]
    simp only [pageOf, htake, hpage]
    simp [← hlimit, hf]

/-- The last page. -/
theorem pageOf_last {f : Message → PopulatedMessage} {found : List Message}
    (h : ¬ limit < found.length) :
    pageOf ((found.take (limit + 1)).map f) limit = ⟨found.map f, false, none⟩ := by
  have htake : found.take (limit + 1) = found := List.take_of_length_le (by omega)
  simp only [pageOf, htake, List.length_map, h, decide_false]
  rfl

/-- Requesting page after page is walking the sorted messages. -/
theorem history_eq_walk (hid : ObjectId.cast conversationId = some id) (hlimit : 0 < limit)
    (hdates : ∀ m ∈ s.messages.docs, m.createdAt ≤ 8640000000000000) (fuel : Nat)
    (before : Option Text) (cursor : Option Int) (hcursor : cursorOf before = cursor.map some) :
    history D conversationId limit s fuel before =
      (D.byCreation.walk limit fuel (matching s id cursor)).map (List.map (populated s)) := by
  induction fuel generalizing before cursor with
  | zero => rfl
  | succ fuel ih =>
    rw [history, getMessageHistory_alone hid hcursor]
    by_cases hmore : limit < (D.byCreation.sort (matching s id cursor)).length
    · obtain ⟨front, last, back, hcut⟩ := Descending.exists_cut hlimit hmore
      have hlast : last ∈ matching s id cursor := by
        apply (D.byCreation.perm _).subset
        rw [hcut.sort]
        simp
      have hnext := cursorOf_toISOString (hdates last (List.mem_of_mem_filter hlast))
      rw [hcut.walk fuel hmore, ← matching_below hlast, Option.map_map]
      have hback : back ≠ [] := by
        intro hnil
        rw [hcut.sort, hnil, List.append_nil, hcut.length] at hmore
        exact Nat.lt_irrefl _ hmore
      have hpage := pageOf_more (f := populated s) (fun _ => rfl) hcut.length hback
      simp only [hcut.sort, hpage, if_true, ih _ (some (last.createdAt : Int)) hnext,
        Option.map_map]
      congr 1
      funext rest
      exact List.map_append.symm
    · rw [Descending.walk_last fuel hmore]
      simp only [pageOf_last hmore]
      rfl

theorem map_populated (out : List Message) : (out.map (populated s)).map (·.message) = out := by
  rw [List.map_map]
  exact List.map_id out

theorem matching_none : matching s id none = messagesOf s id := by
  simp [matching, messagesOf]

theorem HistoryComplete.untied (hid : ObjectId.cast conversationId = some id) (hlimit : 0 < limit)
    (hdates : ∀ m ∈ s.messages.docs, m.createdAt ≤ 8640000000000000)
    (h : HistoryComplete D conversationId limit s id) :
    Untied limit (latestFirst ((messagesOf s id).map Message.createdAt)) := by
  obtain ⟨fuel, out, hout, hperm, _⟩ := h
  rw [history_eq_walk hid hlimit hdates fuel none none rfl, matching_none] at hout
  obtain ⟨found, hfound, rfl⟩ := Option.map_eq_some_iff.mp hout
  rw [map_populated] at hperm
  exact (Descending.walk_perm_iff hlimit hfound).mp hperm

theorem HistoryComplete.of_untied (hid : ObjectId.cast conversationId = some id)
    (hlimit : 0 < limit) (hdates : ∀ m ∈ s.messages.docs, m.createdAt ≤ 8640000000000000)
    (h : Untied limit (latestFirst ((messagesOf s id).map Message.createdAt))) :
    HistoryComplete D conversationId limit s id := by
  obtain ⟨found, hfound⟩ := Descending.exists_walk (D := D.byCreation) hlimit
    (Nat.lt_succ_self (messagesOf s id).length)
  refine ⟨(messagesOf s id).length + 1, found.map (populated s), ?_, ?_, ?_⟩
  · rw [history_eq_walk hid hlimit hdates _ none none rfl, matching_none, hfound]
    rfl
  · rw [map_populated]
    exact (Descending.walk_perm_iff hlimit hfound).mpr h
  · rw [map_populated]
    exact (Descending.walk_ordered hlimit hfound).2

/-- **Complete walks.** On any stored messages, the pages of a conversation contain every
message once, latest first, exactly if each page but the last ends where `createdAt`
changes. -/
theorem history_complete_iff (hid : ObjectId.cast conversationId = some id) (hlimit : 0 < limit)
    (hdates : ∀ m ∈ s.messages.docs, m.createdAt ≤ 8640000000000000) :
    HistoryComplete D conversationId limit s id ↔
      Untied limit (latestFirst ((messagesOf s id).map Message.createdAt)) :=
  ⟨fun h => h.untied hid hlimit hdates, fun h => .of_untied hid hlimit hdates h⟩

end

/-! Two messages of the same millisecond, and a third later. -/

def twinServer : Server :=
  .boot .empty
    ⟨[⟨.ending 3, .oneToOne, none, [.ending 1, .ending 2], some (.ending 6), 0, 0⟩], by decide⟩
    ⟨[⟨.ending 4, .ending 3, .ending 1, "hi".toList, .sent, 7, 7⟩,
      ⟨.ending 5, .ending 3, .ending 2, "ho".toList, .sent, 7, 7⟩,
      ⟨.ending 6, .ending 3, .ending 2, "hey".toList, .sent, 8, 8⟩], by decide⟩ 8

/-- Three messages a page do not cut the twins, two do. -/
theorem history_complete_iff_twins :
    HistoryComplete .default (ObjectId.ending 3).toString 3 twinServer (.ending 3) :=
  (history_complete_iff (by decide) (by decide) (by decide)).mpr
    (Data.untied_of_length_le (by decide))

theorem twins_incomplete :
    ¬ HistoryComplete .default (ObjectId.ending 3).toString 2 twinServer (.ending 3) := by
  intro h
  have hu := h.untied (by decide) (by decide) (by decide) 1 (by decide) (by decide)
  exact hu (by decide)

end RealtimeChat
